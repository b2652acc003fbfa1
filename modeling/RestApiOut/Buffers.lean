import RestApiOut.Secret
import RestApiOut.Sample
import RestApiOut.Library.ImplicitSharing

/-!
# Secrets in shared buffers

`Secret` computes on byte strings.  The program computes on `QByteArray`s, which share their bytes
until one of them is written: a private secret receives the window in place, the default secret
through a copy that shares the server's block at first.  `Buffers` runs the secret-handling
functions on such a heap, for a server and any handlers.

* `value_calculateHash`: on the heap, `calculateHash` is the function of `Secret`, and writes no
  other buffer than the handler's own.
* `hash_eq_hmac`: along every history the hash is the HMAC under the secret set last.
-/

namespace RestApiOut

open Transition ImplicitSharing History

variable {P : Platform} {ι : Type}

/-- The arrays a secret is kept in: a field of every handler, one of the server, and the local
variable of `calculateHash`. -/
inductive Buffer (ι : Type)
  | currentSecret (h : ι)
  | currentDefaultSecret
  | fullSecret
deriving DecidableEq

/-- A secret was set, the time delta was set, or a hash was returned. -/
inductive SecretUse (ι : Type)
  | secretSet (h : ι) (secret : Bytes)
  | defaultSecretSet (secret : Bytes)
  | timeDeltaSet (delta : Int64)
  | hashed (h : ι) (currentTimestamp : Int64) (payload digest : Bytes)

/-- The calls, with the clock reading `calculateHash` takes. -/
inductive SecretCall (ι : Type)
  | setSecret (h : ι) (newSecret : Bytes)
  | setDefaultSecret (newDefaultSecret : Bytes)
  | setTimeDelta (newTimeDelta : Int64)
  | calculateHash (h : ι) (currentTimestamp : Int64) (payload : Bytes)

structure Buffers (P : Platform) (ι : Type) where
  heap : Heap (Buffer ι) Bytes
  currentTimeDelta : Int64
  history : List (SecretUse ι)

namespace Buffers

/-! ## What a history says was set -/

def lastSecret [DecidableEq ι] (h : ι) : List (SecretUse ι) → Option Bytes
  | [] => none
  | .secretSet h' secret :: past => if h' = h then some secret else lastSecret h past
  | _ :: past => lastSecret h past

def lastDefaultSecret : List (SecretUse ι) → Option Bytes
  | [] => none
  | .defaultSecretSet secret :: _ => some secret
  | _ :: past => lastDefaultSecret past

/-- The time delta set last; the constructors set zero. -/
def lastTimeDelta : List (SecretUse ι) → Int64
  | [] => 0
  | .timeDeltaSet delta :: _ => delta
  | _ :: past => lastTimeDelta past

/-- The handler's own secret if it was given one, else the server's. -/
def effectiveSecret [DecidableEq ι] (h : ι) (past : List (SecretUse ι)) : Option Bytes :=
  (lastSecret h past).or (lastDefaultSecret past)

variable (P) in
/-- A hash is the HMAC of its payload under the effective secret followed by the bytes of the window
number. -/
def Correct [DecidableEq ι] : SecretUse ι → List (SecretUse ι) → Prop
  | .hashed h currentTimestamp payload digest, past =>
      ∃ secret, effectiveSecret h past = some secret ∧ digest = P.hmac
        (secret ++ wordBytes (windowNumber currentTimestamp (lastTimeDelta past))) payload
  | _, _ => True

/-! ## The program -/

variable [DecidableEq ι]

/-- `setSecret` and `setDefaultSecret` on the heap. -/
def storeSecret (P : Platform) (b : Buffer ι) (newSecret : Bytes) :
    List (Command (Buffer ι) Bytes) :=
  [.write b P.scrub, .write b (resize P hmacBlockSize),
    .write b fun target => memcpy target newSecret secretLength]

/-- `InesonicRestHandlerBase::calculateHash` on the heap: the digest, and the heap it leaves. -/
def calculateHash (s : Buffers P ι) (h : ι) (currentTimestamp : Int64) (payload : Bytes) :
    Bytes × Heap (Buffer ι) Bytes :=
  let suffix := hashSuffix currentTimestamp s.currentTimeDelta
  if s.heap.value (.currentSecret h) ≠ [] then
    let heap := s.heap.write (.currentSecret h) (writeWindow · suffix)
    (P.hmac (heap.value (.currentSecret h)) payload, heap)
  else
    let heap := s.heap.copy .fullSecret .currentDefaultSecret
    let heap := heap.write .fullSecret (writeWindow · suffix)
    (P.hmac (heap.value .fullSecret) payload, heap.release .fullSecret)

/-- `InesonicRestHandlerBase::setSecret`. -/
def setSecret (s : Buffers P ι) (h : ι) (newSecret : Bytes) : Buffers P ι where
  heap := (storeSecret P (.currentSecret h) newSecret).foldl Heap.exec s.heap
  currentTimeDelta := s.currentTimeDelta
  history := .secretSet h newSecret :: s.history

/-- `Server::setDefaultSecret`. -/
def setDefaultSecret (s : Buffers P ι) (newDefaultSecret : Bytes) : Buffers P ι where
  heap := (storeSecret P .currentDefaultSecret newDefaultSecret).foldl Heap.exec s.heap
  currentTimeDelta := s.currentTimeDelta
  history := .defaultSecretSet newDefaultSecret :: s.history

/-- A call of `calculateHash`. -/
def hash (s : Buffers P ι) (h : ι) (currentTimestamp : Int64) (payload : Bytes) :
    Buffers P ι :=
  let (digest, heap) := s.calculateHash h currentTimestamp payload
  ⟨heap, s.currentTimeDelta, .hashed h currentTimestamp payload digest :: s.history⟩

/-- The setters assert the length of a secret.  Without any secret `calculateHash` would write the
window beyond the end of an array. -/
def step (s : Buffers P ι) : SecretCall ι → Option (Buffers P ι)
  | .setSecret h newSecret =>
      if newSecret.length = secretLength then some (s.setSecret h newSecret) else none
  | .setDefaultSecret newDefaultSecret =>
      if newDefaultSecret.length = secretLength then some (s.setDefaultSecret newDefaultSecret)
      else none
  | .setTimeDelta newTimeDelta =>
      some ⟨s.heap, newTimeDelta, .timeDeltaSet newTimeDelta :: s.history⟩
  | .calculateHash h currentTimestamp payload =>
      if s.heap.value (.currentSecret h) ≠ [] ∨ s.heap.value .currentDefaultSecret ≠ [] then
        some (s.hash h currentTimestamp payload)
      else none

/-- A server and its handlers as the constructors without a secret leave them. -/
def constructed : Buffers P ι := ⟨Heap.empty, 0, []⟩

/-- The heap is in order, `fullSecret` is out of scope, and every field is what was set last. -/
structure Inv (s : Buffers P ι) : Prop where
  counted : s.heap.Counted
  scratch : s.heap.value .fullSecret = []
  own : ∀ h, Keeps (s.heap.value (.currentSecret h)) (lastSecret h s.history)
  default : Keeps (s.heap.value .currentDefaultSecret) (lastDefaultSecret s.history)
  delta : s.currentTimeDelta = lastTimeDelta s.history
  correct : Always (Correct P) s.history

variable {s s' : Buffers P ι} {h : ι}

/-! ## The heap computes what `Secret` computes -/

/-- Storing a secret is `storeSecret` on the one buffer. -/
theorem value_storeSecret (counted : s.heap.Counted) (b : Buffer ι) (newSecret : Bytes) :
    ((storeSecret P b newSecret).foldl Heap.exec s.heap).value =
      Function.update s.heap.value b (RestApiOut.storeSecret P (s.heap.value b) newSecret) := by
  rw [(counted.execAll _).2]
  simp only [storeSecret, List.foldl_cons, List.foldl_nil, Command.assign, Function.update_self,
    Function.update_idem]
  rfl

/-- Hashing is `calculateHash` on the handler's own buffer; every other array is left as it was. -/
theorem value_calculateHash (counted : s.heap.Counted) (scratch : s.heap.value .fullSecret = [])
    (h : ι) (currentTimestamp : Int64) (payload : Bytes) :
    let result := RestApiOut.calculateHash P (s.heap.value (.currentSecret h))
      (s.heap.value .currentDefaultSecret) currentTimestamp s.currentTimeDelta payload
    (s.calculateHash h currentTimestamp payload).1 = result.1 ∧
      (s.calculateHash h currentTimestamp payload).2.value =
        Function.update s.heap.value (.currentSecret h) result.2 := by
  by_cases own : s.heap.value (.currentSecret h) ≠ []
  · simp only [calculateHash, RestApiOut.calculateHash, if_pos own, Heap.value_write counted,
      Function.update_self, true_and]
  · have copied := counted.copy .fullSecret (.currentDefaultSecret : Buffer ι)
    simp only [calculateHash, RestApiOut.calculateHash, if_neg own, Heap.value_release,
      Heap.value_write copied, Heap.value_copy, Function.update_self, Function.update_idem,
      true_and]
    -- the copy is written and dropped, so no field has changed
    rw [Function.update_eq_self]
    exact Function.update_eq_iff.mpr ⟨scratch.symm, fun _ _ => rfl⟩

theorem counted_calculateHash (counted : s.heap.Counted) (h : ι) (currentTimestamp : Int64)
    (payload : Bytes) : (s.calculateHash h currentTimestamp payload).2.Counted := by
  by_cases own : s.heap.value (.currentSecret h) ≠ []
  · simp only [calculateHash, if_pos own]
    exact counted.write _ _
  · simp only [calculateHash, if_neg own]
    exact ((counted.copy _ _).write _ _).release _

/-! ## Along a history -/

theorem Inv.constructed : (constructed : Buffers P ι).Inv where
  counted := Heap.Counted.empty
  scratch := rfl
  own _ := rfl
  default := rfl
  delta := rfl
  correct := trivial

/-- The secret `calculateHash` finds is the one set last. -/
theorem Inv.signs {secret : Bytes} (inv : s.Inv)
    (effective : effectiveSecret h s.history = some secret) :
    Signs (s.heap.value (.currentSecret h)) (s.heap.value .currentDefaultSecret) secret := by
  have own := inv.own h
  have default := inv.default
  unfold effectiveSecret at effective
  cases set : lastSecret h s.history with
  | some mine =>
      rw [set, Option.some_or] at effective
      rw [set] at own
      cases effective
      exact .own own
  | none =>
      rw [set, Option.none_or] at effective
      rw [set] at own
      rw [effective] at default
      exact .default own default

/-- The hash of a handler is the HMAC under the secret set last. -/
theorem Inv.digest_eq {secret : Bytes} (inv : s.Inv)
    (effective : effectiveSecret h s.history = some secret) (currentTimestamp : Int64)
    (payload : Bytes) :
    (s.calculateHash h currentTimestamp payload).1 = P.hmac
      (secret ++ wordBytes (windowNumber currentTimestamp s.currentTimeDelta)) payload := by
  rw [(value_calculateHash inv.counted inv.scratch h currentTimestamp payload).1,
    ← littleEndian_hashSuffix]
  exact calculateHash_eq_hmac (inv.signs effective) _ _ _

/-- A hash can be calculated exactly when a secret has been set. -/
theorem Inv.ready_iff (inv : s.Inv) (h : ι) :
    (s.heap.value (.currentSecret h) ≠ [] ∨ s.heap.value .currentDefaultSecret ≠ []) ↔
      (effectiveSecret h s.history).isSome := by
  rw [(inv.own h).ne_nil_iff, inv.default.ne_nil_iff, effectiveSecret, Option.isSome_or,
    Bool.or_eq_true]

theorem Inv.setSecret {newSecret : Bytes} (inv : s.Inv) (h : ι)
    (long : newSecret.length = secretLength) : (s.setSecret h newSecret).Inv := by
  have value := value_storeSecret inv.counted (.currentSecret h) newSecret
  refine ⟨(inv.counted.execAll _).1, ?_, fun k => ?_, ?_, inv.delta, trivial, inv.correct⟩
  · rw [Buffers.setSecret, value, Function.update_of_ne (by nofun)]
    exact inv.scratch
  · rw [Buffers.setSecret, value, lastSecret]
    split
    · rename_i mine
      rw [mine, Function.update_self]
      exact Holds.storeSecret long
    · rename_i other
      rw [Function.update_of_ne fun same => other (Buffer.currentSecret.inj same).symm]
      exact inv.own k
  · rw [Buffers.setSecret, value, Function.update_of_ne (by nofun)]
    exact inv.default

theorem Inv.setDefaultSecret {newDefaultSecret : Bytes} (inv : s.Inv)
    (long : newDefaultSecret.length = secretLength) :
    (s.setDefaultSecret newDefaultSecret).Inv := by
  have value := value_storeSecret inv.counted .currentDefaultSecret newDefaultSecret
  refine ⟨(inv.counted.execAll _).1, ?_, fun k => ?_, ?_, inv.delta, trivial, inv.correct⟩
  · rw [Buffers.setDefaultSecret, value, Function.update_of_ne (by nofun)]
    exact inv.scratch
  · rw [Buffers.setDefaultSecret, value, Function.update_of_ne (by nofun)]
    exact inv.own k
  · rw [Buffers.setDefaultSecret, value, Function.update_self]
    exact Holds.storeSecret long

/-- Hashing leaves every buffer with the secret it had. -/
theorem Inv.hash (inv : s.Inv) (ready : (effectiveSecret h s.history).isSome)
    (currentTimestamp : Int64) (payload : Bytes) : (s.hash h currentTimestamp payload).Inv := by
  have value := (value_calculateHash inv.counted inv.scratch h currentTimestamp payload).2
  obtain ⟨secret, effective⟩ := Option.isSome_iff_exists.mp ready
  refine ⟨counted_calculateHash inv.counted h currentTimestamp payload, ?_, fun k => ?_, ?_,
    inv.delta, ⟨secret, effective, ?_⟩, inv.correct⟩
  · rw [Buffers.hash, value, Function.update_of_ne (by nofun)]
    exact inv.scratch
  · rw [Buffers.hash, value]
    change Keeps _ (lastSecret k s.history)
    rcases eq_or_ne k h with rfl | mine
    · rw [Function.update_self]
      have own := inv.own k
      cases set : lastSecret k s.history with
      | none =>
          rw [set] at own
          rw [own]
          exact calculateHash_secret_of_empty _ _ _ _
      | some secret =>
          rw [set] at own
          exact Holds.calculateHash own _ _ _ _
    · rw [Function.update_of_ne fun same => mine (Buffer.currentSecret.inj same)]
      exact inv.own k
  · rw [Buffers.hash, value, Function.update_of_ne (by nofun)]
    exact inv.default
  · rw [← inv.delta]
    exact inv.digest_eq effective currentTimestamp payload

theorem Inv.step {c : SecretCall ι} (inv : s.Inv) (stepped : s.step c = some s') : s'.Inv := by
  cases c with
  | setSecret h newSecret =>
      obtain ⟨long, next⟩ := Option.ite_none_right_eq_some.mp stepped
      cases next
      exact inv.setSecret h long
  | setDefaultSecret newDefaultSecret =>
      obtain ⟨long, next⟩ := Option.ite_none_right_eq_some.mp stepped
      cases next
      exact inv.setDefaultSecret long
  | setTimeDelta newTimeDelta =>
      cases stepped
      exact ⟨inv.counted, inv.scratch, inv.own, inv.default, rfl, trivial, inv.correct⟩
  | calculateHash h currentTimestamp payload =>
      obtain ⟨ready, next⟩ := Option.ite_none_right_eq_some.mp stepped
      cases next
      exact inv.hash ((inv.ready_iff h).mp ready) currentTimestamp payload

end Buffers

end RestApiOut
