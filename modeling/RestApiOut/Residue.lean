import RestApiOut.Buffers
import RestApiOut.Library.FreedBlocks

/-!
# What secrets leave in memory

The destructors scrub the arrays that hold a secret.  `Memory` runs the calls of `Buffers` together
with the destructors and looks at the blocks that are freed on the way.  No block is used again, so
a freed block holds what a later allocation would find.

* `secrets_left`: a handler's own secret is freed scrubbed or not at all, but every hash under the
  default secret leaves its key behind, since `fullSecret` goes out of scope as it is.
-/

namespace RestApiOut

open Transition ImplicitSharing

variable {P : Platform} {ι : Type}

/-- The calls of `Buffers` and the destructors. -/
inductive MemoryCall (ι : Type)
  | use (c : SecretCall ι)
  | destroyHandler (h : ι)
  | destroyServer

/-- The secret arrays, and those whose objects have been destroyed. -/
structure Memory (P : Platform) (ι : Type) where
  buffers : Buffers P ι
  destroyed : List (Buffer ι)

namespace Memory

variable [DecidableEq ι]

/-! ## What a history says was left -/

/-- The secret an array was given last. -/
def stored : Buffer ι → List (SecretUse ι) → Option Bytes
  | .currentSecret h, past => Buffers.lastSecret h past
  | .currentDefaultSecret, past => Buffers.lastDefaultSecret past
  | .fullSecret, _ => none

/-- The keys of the hashes of handlers without a secret of their own. -/
def defaultKeys : List (SecretUse ι) → List Bytes
  | [] => []
  | .hashed h currentTimestamp _ _ :: past =>
      match Buffers.lastSecret h past, Buffers.lastDefaultSecret past with
      | none, some secret =>
          (secret ++ wordBytes (windowNumber currentTimestamp (Buffers.lastTimeDelta past))) ::
            defaultKeys past
      | _, _ => defaultKeys past
  | _ :: past => defaultKeys past

/-! ## The program -/

/-- The objects a call uses, by their arrays; `calculateHash` reads the server's members. -/
def objects : SecretCall ι → List (Buffer ι)
  | .setSecret h _ => [.currentSecret h]
  | .setDefaultSecret _ => [.currentDefaultSecret]
  | .setTimeDelta _ => [.currentDefaultSecret]
  | .calculateHash h _ _ => [.currentSecret h, .currentDefaultSecret]

/-- `~InesonicRestHandlerBase` and `~Server`: the array is scrubbed, then its member goes. -/
def destroy (s : Memory P ι) (b : Buffer ι) : Memory P ι where
  buffers := { s.buffers with heap := (s.buffers.heap.write b P.scrub).release b }
  destroyed := b :: s.destroyed

/-- No object is used or destroyed once it has been destroyed. -/
def step (s : Memory P ι) : MemoryCall ι → Option (Memory P ι)
  | .use c =>
      if ∀ b ∈ objects c, b ∉ s.destroyed then (s.buffers.step c).map (⟨·, s.destroyed⟩) else none
  | .destroyHandler h =>
      if .currentSecret h ∈ s.destroyed then none else some (s.destroy (.currentSecret h))
  | .destroyServer =>
      if .currentDefaultSecret ∈ s.destroyed then none else some (s.destroy .currentDefaultSecret)

def constructed : Memory P ι := ⟨Buffers.constructed, []⟩

/-- Nobody shares a block, what still exists holds what it was given last, and the freed blocks are
the keys of hashes under the default secret and the scrubbed arrays of what was destroyed. -/
structure Inv (s : Memory P ι) : Prop where
  exclusive : s.buffers.heap.Exclusive
  null : ∀ b, b = .fullSecret ∨ b ∈ s.destroyed → s.buffers.heap.block b = none
  keeps : ∀ b, b ∉ s.destroyed → Keeps (s.buffers.heap.value b) (stored b s.buffers.history)
  delta : s.buffers.currentTimeDelta = Buffers.lastTimeDelta s.buffers.history
  left : ∃ held : Buffer ι → Bytes,
    (∀ b ∈ s.destroyed, Keeps (held b) (stored b s.buffers.history)) ∧
    s.buffers.heap.freed =
      ↑(defaultKeys s.buffers.history ++ s.destroyed.map fun b => P.scrub (held b))

variable {s t : Memory P ι} {u : Buffers P ι} {b k : Buffer ι} {h : ι}

/-! ## What a call leaves -/

theorem stored_hashed {past : List (SecretUse ι)} {currentTimestamp : Int64}
    {payload digest : Bytes} (b : Buffer ι) :
    stored b (.hashed h currentTimestamp payload digest :: past) = stored b past := by
  cases b <;> rfl

theorem stored_timeDeltaSet {past : List (SecretUse ι)} {delta : Int64} (b : Buffer ι) :
    stored b (.timeDeltaSet delta :: past) = stored b past := by
  cases b <;> rfl

theorem stored_secretSet_of_ne {past : List (SecretUse ι)} {secret : Bytes}
    (other : b ≠ .currentSecret h) : stored b (.secretSet h secret :: past) = stored b past := by
  cases b with
  | currentSecret k => exact if_neg fun same => other (congrArg _ same.symm)
  | currentDefaultSecret => rfl
  | fullSecret => rfl

theorem stored_defaultSecretSet_of_ne {past : List (SecretUse ι)} {secret : Bytes}
    (other : b ≠ .currentDefaultSecret) :
    stored b (.defaultSecretSet secret :: past) = stored b past := by
  cases b with
  | currentSecret k => rfl
  | currentDefaultSecret => exact absurd rfl other
  | fullSecret => rfl

/-- Storing a secret scrubs, resizes and fills the array where it is. -/
theorem exclusive_storeSecret {heap : Heap (Buffer ι) Bytes} (exclusive : heap.Exclusive)
    (b : Buffer ι) (newSecret : Bytes) :
    ((Buffers.storeSecret P b newSecret).foldl Heap.exec heap).Exclusive ∧
      (∀ k, k ≠ b →
        ((Buffers.storeSecret P b newSecret).foldl Heap.exec heap).block k = heap.block k) ∧
      ((Buffers.storeSecret P b newSecret).foldl Heap.exec heap).freed = heap.freed := by
  have unfolded : (Buffers.storeSecret P b newSecret).foldl Heap.exec heap =
      ((heap.write b P.scrub).write b (resize P hmacBlockSize)).write b
        (memcpy · newSecret secretLength) := rfl
  have scrubbed := exclusive.write b P.scrub
  have resized := scrubbed.write b (resize P hmacBlockSize)
  rw [unfolded]
  refine ⟨resized.write b _, fun k other => ?_, ?_⟩
  · exact (resized.block_write_of_ne _ other).trans
      ((scrubbed.block_write_of_ne _ other).trans (exclusive.block_write_of_ne _ other))
  · exact (resized.freed_write b _).trans
      ((scrubbed.freed_write b _).trans (exclusive.freed_write b _))

theorem calculateHash_own (own : u.heap.value (.currentSecret h) ≠ []) (currentTimestamp : Int64)
    (payload : Bytes) : (u.calculateHash h currentTimestamp payload).2 =
      u.heap.write (.currentSecret h)
        (writeWindow · (hashSuffix currentTimestamp u.currentTimeDelta)) := by
  simp only [Buffers.calculateHash, if_pos own]

/-- The copy in `fullSecret` is written and dropped: all it leaves is the key. -/
theorem calculateHash_default (exclusive : u.heap.Exclusive)
    (scratch : u.heap.block .fullSecret = none) (empty : u.heap.value (.currentSecret h) = [])
    (currentTimestamp : Int64) (payload : Bytes) :
    (u.calculateHash h currentTimestamp payload).2 =
      u.heap.extend (writeWindow (u.heap.value .currentDefaultSecret)
        (hashSuffix currentTimestamp u.currentTimeDelta)) := by
  simp only [Buffers.calculateHash, if_neg (not_not.mpr empty)]
  exact exclusive.scratch scratch .currentDefaultSecret _

/-! ## Along a run -/

theorem Inv.constructed : (constructed : Memory P ι).Inv where
  exclusive := Heap.Exclusive.empty
  null _ _ := rfl
  keeps b _ := by cases b <;> rfl
  delta := rfl
  left := ⟨fun _ => [], fun _ member => (List.not_mem_nil member).elim, rfl⟩

/-- What a call has to show: it touches no array of a destroyed object, what exists holds what it
was given last, and what it frees are the keys it adds. -/
theorem Inv.call {heap : Heap (Buffer ι) Bytes} {delta : Int64} {past : List (SecretUse ι)}
    {keys : List Bytes} (inv : s.Inv) (exclusive : heap.Exclusive)
    (blocks : ∀ k, k = .fullSecret ∨ k ∈ s.destroyed → heap.block k = s.buffers.heap.block k)
    (keeps : ∀ k, k ∉ s.destroyed → Keeps (heap.value k) (stored k past))
    (kept : ∀ k ∈ s.destroyed, stored k past = stored k s.buffers.history)
    (last : delta = Buffers.lastTimeDelta past)
    (made : defaultKeys past = keys ++ defaultKeys s.buffers.history)
    (freed : heap.freed = ↑keys + s.buffers.heap.freed) :
    (⟨⟨heap, delta, past⟩, s.destroyed⟩ : Memory P ι).Inv := by
  obtain ⟨held, holds, left⟩ := inv.left
  refine ⟨exclusive, fun k gone => (blocks k gone).trans (inv.null k gone), keeps, last,
    held, fun k member => (kept k member).symm ▸ holds k member, ?_⟩
  simp only [freed, left, made, List.append_assoc, Multiset.coe_add]

/-- A new secret replaces the one the array held, in the same block. -/
theorem Inv.store {newSecret : Bytes} {past : List (SecretUse ι)} (inv : s.Inv)
    (proper : b ≠ .fullSecret) (alive : b ∉ s.destroyed)
    (long : newSecret.length = secretLength) (set : stored b past = some newSecret)
    (others : ∀ k, k ≠ b → stored k past = stored k s.buffers.history)
    (keys : defaultKeys past = defaultKeys s.buffers.history)
    (delta : Buffers.lastTimeDelta past = Buffers.lastTimeDelta s.buffers.history) :
    (⟨⟨(Buffers.storeSecret P b newSecret).foldl Heap.exec s.buffers.heap,
      s.buffers.currentTimeDelta, past⟩, s.destroyed⟩ : Memory P ι).Inv := by
  obtain ⟨exclusive, blocks, freed⟩ := exclusive_storeSecret (P := P) inv.exclusive b newSecret
  have apart : ∀ k ∈ s.destroyed, k ≠ b := fun k member same => alive (same ▸ member)
  refine inv.call exclusive (fun k gone => ?_) (fun k lives => ?_)
    (fun k member => others k (apart k member)) (inv.delta.trans delta.symm) keys
    (freed.trans (Multiset.zero_add _).symm)
  · exact blocks k (gone.elim (fun same => same ▸ proper.symm) (apart k))
  · rw [Buffers.value_storeSecret inv.exclusive.counted]
    rcases eq_or_ne k b with rfl | other
    · rw [Function.update_self, set]
      exact Holds.storeSecret long
    · rw [Function.update_of_ne other, others k other]
      exact inv.keeps k lives

/-- Under its own secret a handler hashes in place. -/
theorem Inv.hash_own (inv : s.Inv) (alive : .currentSecret h ∉ s.destroyed)
    (own : s.buffers.heap.value (.currentSecret h) ≠ []) (currentTimestamp : Int64)
    (payload : Bytes) :
    (⟨s.buffers.hash h currentTimestamp payload, s.destroyed⟩ : Memory P ι).Inv := by
  have holds := inv.keeps _ alive
  obtain ⟨secret, set⟩ := Option.isSome_iff_exists.mp (holds.ne_nil_iff.mp own)
  have mine : Buffers.lastSecret h s.buffers.history = some secret := set
  have heap := calculateHash_own own currentTimestamp payload
  rw [set] at holds
  simp only [Buffers.hash, heap]
  refine inv.call (inv.exclusive.write _ _) (fun k gone => ?_) (fun k lives => ?_)
    (fun k _ => stored_hashed k) inv.delta (by simp only [defaultKeys, mine]; rfl)
    ((inv.exclusive.freed_write _ _).trans (Multiset.zero_add _).symm)
  · refine inv.exclusive.block_write_of_ne _ ?_
    rintro rfl
    rcases gone with scratch | gone
    · cases scratch
    · exact alive gone
  · rw [stored_hashed, Heap.value_write inv.exclusive.counted]
    rcases eq_or_ne k (.currentSecret h) with rfl | other
    · rw [Function.update_self, set]
      exact Holds.writeWindow holds _
    · rw [Function.update_of_ne other]
      exact inv.keeps k lives

/-- Under the default secret it leaves the key it has hashed with. -/
theorem Inv.hash_default (inv : s.Inv) (alive : .currentSecret h ∉ s.destroyed)
    (serverAlive : .currentDefaultSecret ∉ s.destroyed)
    (empty : s.buffers.heap.value (.currentSecret h) = [])
    (ready : s.buffers.heap.value .currentDefaultSecret ≠ []) (currentTimestamp : Int64)
    (payload : Bytes) :
    (⟨s.buffers.hash h currentTimestamp payload, s.destroyed⟩ : Memory P ι).Inv := by
  have unset : Buffers.lastSecret h s.buffers.history = none :=
    Option.not_isSome_iff_eq_none.mp fun set => (inv.keeps _ alive).ne_nil_iff.mpr set empty
  have holds := inv.keeps _ serverAlive
  obtain ⟨secret, set⟩ := Option.isSome_iff_exists.mp (holds.ne_nil_iff.mp ready)
  have server : Buffers.lastDefaultSecret s.buffers.history = some secret := set
  have heap := calculateHash_default inv.exclusive (inv.null _ (.inl rfl)) empty currentTimestamp
    payload
  have made : ∀ digest, defaultKeys
      (.hashed h currentTimestamp payload digest :: s.buffers.history) =
        [secret ++ wordBytes
            (windowNumber currentTimestamp (Buffers.lastTimeDelta s.buffers.history))] ++
          defaultKeys s.buffers.history := fun digest => by
    simp only [defaultKeys, unset, server, List.singleton_append]
  rw [set] at holds
  rw [Holds.writeWindow_eq holds, littleEndian_hashSuffix, inv.delta] at heap
  simp only [Buffers.hash, heap]
  refine inv.call (inv.exclusive.extend _) (fun _ _ => rfl) (fun k lives => ?_)
    (fun k _ => stored_hashed k) inv.delta (made _) (Heap.freed_extend _ _)
  rw [stored_hashed, Heap.value_extend inv.exclusive.counted]
  exact inv.keeps k lives

/-- An object that is destroyed leaves its scrubbed array. -/
theorem Inv.destroy (inv : s.Inv) (alive : b ∉ s.destroyed) : (s.destroy b).Inv := by
  obtain ⟨held, holds, left⟩ := inv.left
  have apart : ∀ k ∈ s.destroyed, k ≠ b := fun k member same => alive (same ▸ member)
  refine ⟨(inv.exclusive.write b _).release b, fun k gone => ?_, fun k lives => ?_, inv.delta,
    Function.update held b (s.buffers.heap.value b), fun k member => ?_, ?_⟩
  · rcases eq_or_ne k b with rfl | other
    · exact Heap.block_release_self
    · have before := gone.imp_right fun member => (List.mem_cons.mp member).resolve_left other
      exact (Heap.block_release_of_ne other).trans
        ((inv.exclusive.block_write_of_ne _ other).trans (inv.null k before))
  · have other : k ≠ b := List.ne_of_not_mem_cons lives
    simp only [Memory.destroy, Heap.value_release, Heap.value_write inv.exclusive.counted,
      Function.update_of_ne other]
    exact inv.keeps k (List.not_mem_of_not_mem_cons lives)
  · rcases eq_or_ne k b with rfl | other
    · rw [Function.update_self]
      exact inv.keeps k alive
    · rw [Function.update_of_ne other]
      exact holds k ((List.mem_cons.mp member).resolve_left other)
  · have same : (s.destroyed.map fun k =>
          P.scrub (Function.update held b (s.buffers.heap.value b) k)) =
        s.destroyed.map fun k => P.scrub (held k) :=
      List.map_congr_left fun k member => by rw [Function.update_of_ne (apart k member)]
    simp only [Memory.destroy, inv.exclusive.freed_drop, left, List.map_cons,
      Function.update_self, same]
    exact Multiset.coe_eq_coe.mpr List.perm_middle.symm

theorem Inv.use {c : SecretCall ι} (inv : s.Inv) (alive : ∀ b ∈ objects c, b ∉ s.destroyed)
    (stepped : s.buffers.step c = some u) : (⟨u, s.destroyed⟩ : Memory P ι).Inv := by
  cases c with
  | setSecret h newSecret =>
      obtain ⟨long, next⟩ := Option.ite_none_right_eq_some.mp stepped
      cases next
      exact inv.store nofun (alive _ (List.mem_singleton_self _)) long (if_pos rfl)
        (fun _ other => stored_secretSet_of_ne other) rfl rfl
  | setDefaultSecret newDefaultSecret =>
      obtain ⟨long, next⟩ := Option.ite_none_right_eq_some.mp stepped
      cases next
      exact inv.store nofun (alive _ (List.mem_singleton_self _)) long rfl
        (fun _ other => stored_defaultSecretSet_of_ne other) rfl rfl
  | setTimeDelta newTimeDelta =>
      cases stepped
      exact inv.call inv.exclusive (fun _ _ => rfl)
        (fun k lives => (stored_timeDeltaSet k).symm ▸ inv.keeps k lives)
        (fun k _ => stored_timeDeltaSet k) rfl rfl (Multiset.zero_add _).symm
  | calculateHash h currentTimestamp payload =>
      obtain ⟨ready, next⟩ := Option.ite_none_right_eq_some.mp stepped
      cases next
      obtain ⟨mine, server⟩ := List.forall_mem_cons.mp alive
      by_cases own : s.buffers.heap.value (.currentSecret h) = []
      · exact inv.hash_default mine (server _ (List.mem_singleton_self _)) own
          (ready.resolve_left (not_not.mpr own)) currentTimestamp payload
      · exact inv.hash_own mine own currentTimestamp payload

theorem Inv.step {c : MemoryCall ι} (inv : s.Inv) (stepped : s.step c = some t) : t.Inv := by
  cases c with
  | use c =>
      obtain ⟨alive, next⟩ := Option.ite_none_right_eq_some.mp stepped
      obtain ⟨u, used, rfl⟩ := Option.map_eq_some_iff.mp next
      exact inv.use alive used
  | destroyHandler h =>
      obtain ⟨alive, next⟩ := Option.ite_none_left_eq_some.mp stepped
      cases next
      exact inv.destroy alive
  | destroyServer =>
      obtain ⟨alive, next⟩ := Option.ite_none_left_eq_some.mp stepped
      cases next
      exact inv.destroy alive

/-- **What is left of the secrets.**  In every run of a server and its handlers, in which objects
are destroyed at any time, the freed blocks are one key for each hash under the default secret,
the default secret and the window as they stood, and one scrubbed array for each object destroyed.
Every other block is the array of one object that still exists, and holds the secret that object
was given last. -/
theorem secrets_left {calls : List (MemoryCall ι)}
    (run : FreeRun Memory.step (constructed : Memory P ι) calls s) :
    (∃ held : Buffer ι → Bytes,
      (∀ b ∈ s.destroyed, Keeps (held b) (stored b s.buffers.history)) ∧
      s.buffers.heap.freed =
        ↑(defaultKeys s.buffers.history ++ s.destroyed.map fun b => P.scrub (held b))) ∧
    ∀ a < s.buffers.heap.next, a ∉ s.buffers.heap.freedBlocks →
      ∃ b, b ≠ .fullSecret ∧ b ∉ s.destroyed ∧
        (∀ k, s.buffers.heap.block k = some a ↔ k = b) ∧
        Keeps (s.buffers.heap.content a) (stored b s.buffers.history) := by
  have inv : s.Inv := run.invariant (fun inv _ stepped => Inv.step inv stepped) Inv.constructed
  refine ⟨inv.left, fun a allocated live => ?_⟩
  have counted : s.buffers.heap.refs a ≠ 0 := fun free =>
    live (Heap.mem_freedBlocks.mpr ⟨allocated, free⟩)
  obtain ⟨b, used⟩ := inv.exclusive.used a counted
  have present : ¬ (b = .fullSecret ∨ b ∈ s.destroyed) := fun gone => by
    cases (inv.null b gone).symm.trans used
  obtain ⟨proper, alive⟩ := not_or.mp present
  refine ⟨b, proper, alive, fun k => ⟨inv.exclusive.sole b k a used, ?_⟩, ?_⟩
  · rintro rfl
    exact used
  · have keeps := inv.keeps b alive
    simpa only [Heap.value, used] using keeps

/-- Two handlers, one with a secret of its own, until everything is destroyed. -/
def sampleLifetime : List (MemoryCall Bool) :=
  [.use (.setDefaultSecret (List.replicate secretLength 9)),
    .use (.setSecret true (List.replicate secretLength 7)),
    .use (.calculateHash true 1700000000 [1]), .use (.calculateHash false 1700000000 [1]),
    .destroyHandler true, .use (.setTimeDelta (-40)), .use (.calculateHash false 1700000000 []),
    .destroyHandler false, .destroyServer]

/-- The two hashes of the other handler left their keys. -/
theorem secrets_left_at_exit :
    ∃ s : Memory Platform.sample Bool, FreeRun Memory.step constructed sampleLifetime s ∧
      s.destroyed = [.currentDefaultSecret, .currentSecret false, .currentSecret true] ∧
      defaultKeys s.buffers.history =
        [List.replicate secretLength 9 ++ wordBytes 56666665,
          List.replicate secretLength 9 ++ wordBytes 56666666] ∧
      ∃ held : Buffer Bool → Bytes,
        (∀ b ∈ s.destroyed, Keeps (held b) (stored b s.buffers.history)) ∧
        s.buffers.heap.freed = ↑(defaultKeys s.buffers.history ++
          s.destroyed.map fun b => Platform.sample.scrub (held b)) :=
  ⟨_, run_of_isSome (by decide), by decide, by decide,
    (secrets_left (run_of_isSome (by decide))).1⟩

end Memory

end RestApiOut
