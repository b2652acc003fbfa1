import RestApiOut.Signing

/-!
# The key buffer

`calculateHash` writes the window into the handler's own secret or, when that is empty, into a copy
of the server's default secret, which it does not look at.  Every secret buffer is one HMAC block
once a setter has filled it and empty before, so the write stays inside its buffer exactly when the
handler or its server has been given a secret (`key_within_buffer_iff`).  Constructors without a
secret leave both empty, and `post` on such a pair writes past the end of an empty array
(`post_without_secret`).
-/

namespace RestApiOut

open Transition

variable {P : Platform} {ι : Type}

/-- The buffer `calculateHash` writes the window into. -/
def keyBuffer (currentSecret currentDefaultSecret : Bytes) : Bytes :=
  if currentSecret ≠ [] then currentSecret else currentDefaultSecret

theorem calculateHash_eq (currentSecret currentDefaultSecret : Bytes)
    (currentTimestamp timeDelta : Int64) (payload : Bytes) :
    (calculateHash P currentSecret currentDefaultSecret currentTimestamp timeDelta payload).1 =
      P.hmac (writeWindow (keyBuffer currentSecret currentDefaultSecret)
        (hashSuffix currentTimestamp timeDelta)) payload := by
  unfold calculateHash keyBuffer
  split <;> rfl

/-- Word number `secretLength / 8` of the buffer exists, and the key that results from writing it is
one HMAC block. -/
structure WithinBuffer (buffer : Bytes) : Prop where
  store : secretLength + 8 ≤ buffer.length
  key : ∀ window, (writeWindow buffer window).length = hmacBlockSize

theorem withinBuffer_of_block {buffer : Bytes} (block : buffer.length = hmacBlockSize) :
    WithinBuffer buffer where
  store := by rw [block]; decide
  key := length_writeWindow block

theorem not_withinBuffer_nil : ¬ WithinBuffer [] := by
  intro within
  have store := within.store
  simp at store

/-- A pair of secret buffers, each as its setters have left it. -/
theorem withinBuffer_keyBuffer_iff {own default : Bytes} {lastOwn lastDefault : Option Bytes}
    (ownKeeps : Keeps own lastOwn) (defaultKeeps : Keeps default lastDefault) :
    WithinBuffer (keyBuffer own default) ↔ (lastOwn.or lastDefault).isSome := by
  cases lastOwn with
  | some secret =>
      have holds : Holds own secret := ownKeeps
      rw [keyBuffer, if_pos holds.ne_nil]
      exact iff_of_true (withinBuffer_of_block holds.block) rfl
  | none =>
      have empty : own = [] := ownKeeps
      rw [keyBuffer, if_neg (not_not.mpr empty), Option.none_or]
      cases lastDefault with
      | some secret =>
          have holds : Holds default secret := defaultKeeps
          exact iff_of_true (withinBuffer_of_block holds.block) rfl
      | none =>
          have unset : default = [] := defaultKeeps
          rw [unset]
          exact iff_of_false not_withinBuffer_nil (by simp)

namespace World

/-- The handler whose message an event makes `calculateHash` sign: that of a `post` which finds no
update running, or the next one the success loop calls, which waits for a deferred or retried
message. -/
def hashing (w : World P ι) : Event P ι → Option ι
  | .call (.post h _ _) =>
      if w.server.requestMutex = false ∧ w.server.pendingReply = none then some h else none
  | .next =>
      match w.control with
      | .updating (h :: _) => some h
      | _ => none
  | _ => none

/-- A hash is computed within its key buffer. -/
def HashesWithinBuffer (w : World P ι) (e : Event P ι) : Prop :=
  ∀ h, w.hashing e = some h →
    WithinBuffer (keyBuffer (w.handler h).currentSecret w.server.currentDefaultSecret)

variable [DecidableEq ι]

/-- A hash is computed for a handler that has been given a secret of its own or whose server has
been given a default secret. -/
def SecretGiven (w : World P ι) (e : Event P ι) : Prop :=
  ∀ h, w.hashing e = some h → (effectiveSecret h w.trace).isSome

instance (w : World P ι) (e : Event P ι) : Decidable (w.SecretGiven e) :=
  decidable_of_iff ((w.hashing e).all fun h => (effectiveSecret h w.trace).isSome)
    (Option.all_eq_true _ _)

variable {w w' : World P ι} {h : ι}

/-- `hashing` names the handler a step sends a message of. -/
theorem Action.hashing_iff {e : Event P ι} {new : Trace P ι} (inv : w.Inv)
    (action : Action w e w') (emitted : w'.trace = new ++ w.trace) :
    w.hashing e = some h ↔ ∃ superseded r m, .sent h superseded r m ∈ new := by
  have shown : ∀ t : Trace P ι, w'.trace = t ++ w.trace → new = t := fun t trace =>
    List.append_cancel_right (emitted.symm.trans trace)
  cases action with
  | @postNow k endpoint content user free idle kind =>
      have mutex := inv.mutex.trans free
      rw [shown [_, _] (trace_timestampUpdated (w.beginPost k endpoint content) k)]
      simp [hashing, mutex, idle, eq_comm]
  | @postDeferred k endpoint content r user free pending =>
      rw [shown [_, _] rfl]
      simp [hashing, pending]
  | @postBlocked k j endpoint content rest inLoop =>
      have mutex : w.server.requestMutex = true := by
        rw [inv.mutex, inLoop]
        rfl
      rw [shown [_] rfl]
      simp [hashing, mutex]
  | @notifyUpdated k rest inLoop =>
      rw [shown [_, _] (trace_timestampUpdated (w.note (.notified k true)) k)]
      simp [hashing, inLoop, eq_comm]
  | endUpdated inLoop | endFailed inLoop =>
      rw [shown [_] rfl]
      simp [hashing, inLoop]
  | notifyFailed inLoop =>
      rw [shown [_, _] rfl]
      simp [hashing, inLoop]
  | @configure c s plain noPost =>
      rw [shown [] rfl]
      cases c with
      | post k endpoint content => exact absurd rfl (noPost k endpoint content)
      | setSecret | setDefaultSecret | setSchemeAndHost | setUserAgent | setTimeDeltaSlug
      | setTimeDelta => simp [hashing]
  | returned | resumed | arrived | destroyed =>
      rw [shown [] rfl]
      simp [hashing]
  | setSecret | setDefaultSecret | slotNull =>
      rw [shown [_] rfl]
      simp [hashing]
  | slotOutcome | serverRetry | serverFailed =>
      rw [shown [_, _] rfl]
      simp [hashing]
  | serverUpdated =>
      rw [shown [_, _, _] rfl]
      simp [hashing]
  | slotRetry =>
      obtain ⟨retried, trace, unsent⟩ := trace_slotRetry w _ _ _
      rw [shown retried trace]
      simp [hashing, unsent]

/-- In a configured world the two conditions on a hash are the same. -/
theorem Configured.hashesWithinBuffer_iff (configured : w.Configured) (e : Event P ι) :
    w.HashesWithinBuffer e ↔ w.SecretGiven e :=
  forall₂_congr fun h _ => withinBuffer_keyBuffer_iff (configured.own h) configured.default

/-- **The window is written inside its key buffer, in exactly the runs that hash for no handler
without a secret**: every message hashed, by a `post`, a deferred notification or a retry, has a
secret of its handler's own or a default secret set before.  The buffer is the one `calculateHash`
makes the key of, and a step hashes for the handlers it sends a message of. -/
theorem key_within_buffer_iff {es : List (Event P ι)} (init : w.Initial) :
    (Run World.step HashesWithinBuffer w es w' ↔ Run World.step SecretGiven w es w') ∧
      (∀ own default timestamp timeDelta payload,
        (calculateHash P own default timestamp timeDelta payload).1 =
          P.hmac (writeWindow (keyBuffer own default) (hashSuffix timestamp timeDelta)) payload) ∧
      (FreeRun World.step w es w' → ∀ e u new, w'.step e = some u → u.trace = new ++ w'.trace →
        ∀ h, w'.hashing e = some h ↔ ∃ superseded r m, .sent h superseded r m ∈ new) := by
  refine ⟨?_, calculateHash_eq, fun run e u new stepped emitted h => ?_⟩
  · refine Run.congr_guard (I := fun w => w.Inv ∧ w.Configured) (fun all stepped => ?_)
      (fun all _ => all.2.hashesWithinBuffer_iff _) ⟨init.inv, init.configured⟩
    exact ⟨all.1.step stepped, all.2.action (step_action all.1 stepped)⟩
  · have inv := init.reachable run
    exact (step_action inv stepped).hashing_iff inv emitted

/-- A server and a handler constructed without a secret, and a `post`: the window is written at
byte 56 of an empty array. -/
theorem post_without_secret :
    ∃ w', FreeRun World.step Sample.world [Sample.postByte 1] w' ∧
      ¬ Run World.step HashesWithinBuffer Sample.world [Sample.postByte 1] w' := by
  refine ⟨Sample.reached [Sample.postByte 1], .cons trivial rfl .nil, fun run => ?_⟩
  cases run with
  | cons within _ _ => exact not_withinBuffer_nil (within false rfl)

/-- With a default secret, a message is hashed by a `post` and again by its retry. -/
theorem key_within_buffer_of_default_secret :
    ∃ w', Run World.step HashesWithinBuffer Sample.world
      ([Sample.secret, Sample.postByte 1] ++
        Sample.completes 0 Sample.rejected ++ Sample.completes 1 (Sample.answered 5) ++
        [.next]) w' := by
  obtain ⟨w', given⟩ : ∃ w', Run World.step SecretGiven Sample.world
      ([Sample.secret, Sample.postByte 1] ++
        Sample.completes 0 Sample.rejected ++ Sample.completes 1 (Sample.answered 5) ++
        [.next]) w' := ⟨_, run_of_isSome (by decide)⟩
  exact ⟨w', (key_within_buffer_iff Sample.world_initial).1.mpr given⟩

end World

end RestApiOut
