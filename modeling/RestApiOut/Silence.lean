import RestApiOut.Lifetime
import RestApiOut.Session

/-!
# After destruction

A handler that is destroyed off the list is gone: nothing is sent or reported in its name any more,
nothing it sent is still on the wire, and the server never calls it (`destroyed_silent`).

Three facts about a step make up the argument: what a step shows of a handler needs a call of the
application on it, a reply of its own on the wire or an entry on the list (`Action.concerns_cases`);
all of these only living handlers have (`Lives.Inv`); and a destroyed handler stays destroyed.
-/

namespace RestApiOut

open Transition

variable {P : Platform} {ι : Type}

namespace World

variable {w w' : World P ι} {h k : ι} {q r : ReplyId}

/-- What lets a step show something of `k`. -/
def Stirred (w : World P ι) (e : Event P ι) (k : ι) : Prop :=
  (∃ endpoint content, e = .call (.post k endpoint content)) ∨
    (∃ r ∈ w.network.live, w.network.receiver r = some (.handler k)) ∨
      k ∈ w.server.waitingRestApis

/-- A step that shows only the handler `h`. -/
theorem shows_only {e : Event P ι} (new : Trace P ι) (emitted : w'.trace = new ++ w.trace)
    (only : ∀ o ∈ new, ∀ k, o.concerns k → k = h) (stirred : w.Stirred e h) :
    ∃ new, w'.trace = new ++ w.trace ∧ ∀ o ∈ new, ∀ k, o.concerns k → w.Stirred e k :=
  ⟨new, emitted, fun o member k concerns => only o member k concerns ▸ stirred⟩

/-- A step that shows no handler. -/
theorem shows_nobody {e : Event P ι} (new : Trace P ι) (emitted : w'.trace = new ++ w.trace)
    (nobody : ∀ o ∈ new, ∀ k, ¬ o.concerns k) :
    ∃ new, w'.trace = new ++ w.trace ∧ ∀ o ∈ new, ∀ k, o.concerns k → w.Stirred e k :=
  ⟨new, emitted, fun o member k concerns => absurd concerns (nobody o member k)⟩

variable [DecidableEq ι]

/-- **What a step shows of a handler was stirred by it.** -/
theorem Action.concerns_cases {e : Event P ι} (action : Action w e w') (inv : w.Inv) :
    ∃ new, w'.trace = new ++ w.trace ∧ ∀ o ∈ new, ∀ k, o.concerns k → w.Stirred e k := by
  cases action with
  | @postNow h endpoint content =>
      refine shows_only [_, _] (trace_timestampUpdated (w.beginPost h endpoint content) h) ?_
        (.inl ⟨endpoint, content, rfl⟩)
      intro o member k concerns
      rcases List.mem_pair.mp member with rfl | rfl
      · exact concerns.symm
      · exact concerns.symm
  | @postDeferred h endpoint content =>
      refine shows_only [_, _] rfl ?_ (.inl ⟨endpoint, content, rfl⟩)
      intro o member k concerns
      rcases List.mem_pair.mp member with rfl | rfl
      · exact concerns.symm
      · exact concerns.symm
  | @postBlocked h j endpoint content =>
      refine shows_only [_] rfl ?_ (.inl ⟨endpoint, content, rfl⟩)
      intro o member k concerns
      cases List.mem_singleton.mp member
      exact concerns.symm
  | @notifyUpdated h rest inLoop =>
      have called : h ∈ w.server.waitingRestApis := inv.waiting_of_called (by rw [inLoop]; rfl)
      refine shows_only [_, _] (trace_timestampUpdated (w.note (.notified h true)) h) ?_
        (.inr (.inr called))
      intro o member k concerns
      rcases List.mem_pair.mp member with rfl | rfl
      · exact concerns.symm
      · exact concerns.symm
  | @notifyFailed h rest inLoop =>
      have called : h ∈ w.server.waitingRestApis := inv.waiting_of_called (by rw [inLoop]; rfl)
      refine shows_only [_, _] rfl ?_ (.inr (.inr called))
      intro o member k concerns
      rcases List.mem_pair.mp member with rfl | rfl
      · exact concerns.symm
      · exact concerns.symm
  | @slotNull h r finishing null =>
      refine shows_only [_] rfl ?_ (.inr (.inl ⟨r, finishing.live, finishing.receiver⟩))
      intro o member k concerns
      cases List.mem_singleton.mp member
      exact concerns.symm
  | @slotOutcome h r q o finishing pending final =>
      refine shows_only [_, _] rfl ?_ (.inr (.inl ⟨r, finishing.live, finishing.receiver⟩))
      intro o member k concerns
      rcases List.mem_pair.mp member with rfl | rfl
      · exact concerns.symm
      · exact concerns.symm
  | @slotRetry h r q finishing pending rejected =>
      obtain ⟨shown, trace, -, unconcerned⟩ :=
        follows_enlist (((w.enterSlot h r).takePending h q).spendRetry h q) h
      refine shows_only (shown ++ [.retry h q, .slot h r (some q)]) ?_ ?_
        (.inr (.inl ⟨r, finishing.live, finishing.receiver⟩))
      · rw [trace, List.append_assoc, ← pending]
        rfl
      · intro o member k concerns
        rcases List.mem_append.mp member with enlisted | slot
        · by_contra mine
          exact unconcerned o enlisted k (Ne.symm mine) concerns
        · rcases List.mem_pair.mp slot with rfl | rfl
          · exact concerns.symm
          · exact concerns.symm
  | setSecret | setDefaultSecret | endUpdated | endFailed =>
      refine shows_nobody [_] rfl ?_
      intro o member k
      cases List.mem_singleton.mp member
      exact id
  | configure | returned | resumed | arrived | destroyed =>
      exact shows_nobody [] rfl fun o member => absurd member List.not_mem_nil
  | serverRetry | serverFailed =>
      refine shows_nobody [_, _] rfl ?_
      intro o member k
      rcases List.mem_pair.mp member with rfl | rfl
      · exact id
      · exact id
  | serverUpdated =>
      refine shows_nobody [_, _, _] rfl ?_
      intro o member k
      simp only [List.mem_cons, List.not_mem_nil, or_false] at member
      rcases member with rfl | rfl | rfl
      · exact id
      · exact id
      · exact id

end World

namespace Lives

variable {s s' t u : Lives P ι} {h : ι}

/-- Only a living handler is stirred. -/
theorem Inv.alive_of_stirred {e : Event P ι} (inv : s.Inv) (usable : e.usable s.status)
    (stirred : s.world.Stirred e h) : s.status h = .alive := by
  rcases stirred with ⟨endpoint, content, rfl⟩ | ⟨r, live, receiver⟩ | waits
  · exact usable
  · exact inv.replies h r live receiver
  · exact inv.living.entries h waits

variable [DecidableEq ι]

/-- A step shows nothing of a handler that is not alive and does not call it, and it shows nothing
of anybody when a handler is constructed or destroyed. -/
theorem Inv.silent {d : Deed P ι} (inv : s.Inv) (dead : s.status h ≠ .alive)
    (stepped : s.step d = some s') :
    ∃ new calls, s'.world.trace = new ++ s.world.trace ∧ s'.calls = calls ++ s.calls ∧
      (∀ o ∈ new, ¬ o.concerns h) ∧ ∀ call ∈ calls, call.1 ≠ h := by
  cases d with
  | run e =>
      simp only [Lives.step] at stepped
      split at stepped
      · rename_i usable
        obtain ⟨w, moved, rfl⟩ := Option.map_eq_some_iff.mp stepped
        obtain ⟨new, emitted, stirred⟩ :=
          (World.step_action inv.world moved).concerns_cases inv.world
        have quiet : ∀ o ∈ new, ¬ o.concerns h := fun o member concerns =>
          dead (inv.alive_of_stirred usable (stirred o member h concerns))
        dsimp only
        split
        · rename_i k called
          refine ⟨new, [(k, s.status k)], emitted, rfl, quiet, fun call member same => ?_⟩
          cases List.mem_singleton.mp member
          cases same
          exact dead (inv.living.entries k (inv.world.waiting_of_called called))
        · exact ⟨new, [], emitted, rfl, quiet, fun call member => absurd member List.not_mem_nil⟩
      · cases stepped
  | construct k =>
      simp only [Lives.step] at stepped
      split at stepped
      · cases stepped
        exact ⟨[], [], rfl, rfl, by simp, by simp⟩
      · cases stepped
  | destroy k =>
      simp only [Lives.step] at stepped
      split at stepped
      · cases stepped
        exact ⟨[], [], rfl, rfl, by simp, by simp⟩
      · cases stepped

/-- Nobody is constructed twice. -/
theorem destroyed_stays {d : Deed P ι} (stepped : s.step d = some s')
    (dead : s.status h = .destroyed) : s'.status h = .destroyed := by
  cases d with
  | run e =>
      simp only [Lives.step] at stepped
      split at stepped
      · obtain ⟨w, moved, rfl⟩ := Option.map_eq_some_iff.mp stepped
        exact dead
      · cases stepped
  | construct k =>
      simp only [Lives.step] at stepped
      split at stepped
      · rename_i ready
        cases stepped
        have other : h ≠ k := by
          rintro rfl
          rw [dead] at ready
          cases ready.2
        exact (Function.update_of_ne other _ _).trans dead
      · cases stepped
  | destroy k =>
      simp only [Lives.step] at stepped
      split at stepped
      · cases stepped
        rcases eq_or_ne h k with rfl | other
        · exact Function.update_self _ _ _
        · exact (Function.update_of_ne other _ _).trans dead
      · cases stepped

/-- **A destroyed handler is silent.** In every run that destroys no handler on the list, whatever
happens after a handler has been destroyed, nothing more is observed of it, the server never calls
it, and no reply of its is left on the wire. -/
theorem destroyed_silent {ds ds' : List (Deed P ι)} (init : s.Initial)
    (before : Run Lives.step DestroysIdle s ds t) (dead : t.status h = .destroyed)
    (after : Run Lives.step DestroysIdle t ds' u) :
    (∃ new calls, u.world.trace = new ++ t.world.trace ∧ u.calls = calls ++ t.calls ∧
      (∀ o ∈ new, ¬ o.concerns h) ∧ ∀ call ∈ calls, call.1 ≠ h) ∧
      ∀ r ∈ u.world.network.live, u.world.network.receiver r ≠ some (.handler h) := by
  have inv : t.Inv := before.invariant (I := Inv) (fun inv idle stepped => inv.step idle stepped)
    init.inv
  have kept : (u.Inv ∧ u.status h = .destroyed) ∧
      ∃ new calls, u.world.trace = new ++ t.world.trace ∧ u.calls = calls ++ t.calls ∧
        (∀ o ∈ new, ¬ o.concerns h) ∧ ∀ call ∈ calls, call.1 ≠ h := by
    refine after.invariant (I := fun v => (v.Inv ∧ v.status h = .destroyed) ∧
      ∃ new calls, v.world.trace = new ++ t.world.trace ∧ v.calls = calls ++ t.calls ∧
        (∀ o ∈ new, ¬ o.concerns h) ∧ ∀ call ∈ calls, call.1 ≠ h) ?_
      ⟨⟨inv, dead⟩, [], [], rfl, rfl, by simp, by simp⟩
    rintro v d v' ⟨⟨inv, dead⟩, new, calls, trace, called, quiet, others⟩ idle stepped
    have gone : v.status h ≠ .alive := by
      rw [dead]
      nofun
    obtain ⟨more, further, trace', called', quiet', others'⟩ := inv.silent gone stepped
    refine ⟨⟨inv.step idle stepped, destroyed_stays stepped dead⟩, more ++ new, further ++ calls,
      ?_, ?_, ?_, ?_⟩
    · rw [trace', trace, List.append_assoc]
    · rw [called', called, List.append_assoc]
    · intro o member
      rcases List.mem_append.mp member with now | earlier
      · exact quiet' o now
      · exact quiet o earlier
    · intro call member
      rcases List.mem_append.mp member with now | earlier
      · exact others' call now
      · exact others call earlier
  obtain ⟨⟨inv', dead'⟩, shown⟩ := kept
  refine ⟨shown, fun r live receiver => ?_⟩
  have alive := inv'.replies h r live receiver
  rw [dead'] at alive
  cases alive

/-- Both handlers send when an update ends; `false` is destroyed before it is answered. -/
def destroyedUnanswered : List (Deed Platform.sample Bool) :=
  [.construct false, .construct true] ++ ([Sample.secret, Sample.postObject 1] ++
    Sample.completes 0 Sample.rejected ++ [Sample.postByte 1] ++
    Sample.completes 1 (Sample.answered 7) ++ [Event.next, .next, .next, .ret]).map .run ++
    [.destroy false]

/-- The other handler is answered, and posts again. -/
theorem destroyed_silent_while_others_go_on :
    ∃ t u : Lives Platform.sample Bool,
      Run Lives.step DestroysIdle sample destroyedUnanswered t ∧ t.status false = .destroyed ∧
      Run Lives.step DestroysIdle t
        ((Sample.completes 2 Sample.succeeded ++ [.ret, Sample.postObject 2]).map .run) u ∧
      (∃ new calls, u.world.trace = new ++ t.world.trace ∧ u.calls = calls ++ t.calls ∧
        (∀ o ∈ new, ¬ o.concerns false) ∧ ∀ call ∈ calls, call.1 ≠ false) ∧
      ∀ r ∈ u.world.network.live, u.world.network.receiver r ≠ some (.handler false) := by
  have reached : ∃ u, Run Lives.step DestroysIdle sample (destroyedUnanswered ++
      (Sample.completes 2 Sample.succeeded ++ [.ret, Sample.postObject 2]).map .run) u :=
    ⟨_, run_of_isSome (by decide)⟩
  obtain ⟨u, run⟩ := reached
  obtain ⟨t, before, after⟩ := run.of_append
  have dead : t.status false = .destroyed := by
    rw [before.target_unique (run_of_isSome (by decide) : Run Lives.step DestroysIdle sample
      destroyedUnanswered _)]
    decide
  exact ⟨t, u, before, dead, after, destroyed_silent sample_initial before dead after⟩

end Lives

end RestApiOut
