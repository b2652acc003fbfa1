import RestApiOut.Sample

/-!
# The mutex and the callbacks

Both notification loops of `Server::responseReceived` run with `requestMutex` held.  The success
loop calls nothing of the application's; the failure loop calls `processRequestFailed` of every
waiting handler, and a `post` made there locks the mutex again.

* `appends_outside_loops` holds in every run: the second lock is reached before the list could be
  changed, so no loop ever sees the list it iterates over grow.
* `never_relocked_iff`: the thread never waits for itself in exactly the runs without a `post` from
  a callback of the failure loop.  The server's own two signals are emitted after the mutex is
  released, and posting from them is safe.
-/

namespace RestApiOut

open Transition History

variable {P : Platform} {ι : Type}

/-- A callback of the failure loop is running. -/
def Control.inFailure : Control ι → Bool
  | .failed _ _ => true
  | _ => false

/-- No `post` is made from a callback of the failure loop. -/
def PostsReleased (w : World P ι) : Event P ι → Prop
  | .call (.post _ _ _) => w.control.inFailure = false
  | _ => True

instance (w : World P ι) : ∀ e, Decidable (PostsReleased w e)
  | .call (.post _ _ _) => inferInstanceAs (Decidable (_ = _))
  | .call (.setSecret _ _) | .call (.setDefaultSecret _) | .call (.setSchemeAndHost _)
  | .call (.setUserAgent _) | .call (.setTimeDeltaSlug _) | .call (.setTimeDelta _)
  | .ret | .next | .arrive _ _ | .finish _ | .destroyReply _ => isTrue trivial

/-- A notification loop has started and not ended. -/
def iterating : Trace P ι → Bool
  | [] => false
  | .notifying _ :: _ => true
  | .released _ :: _ => false
  | _ :: past => iterating past

/-- Nothing is appended to `waitingRestApis` while a loop iterates over it. -/
def AppendsOutsideLoops : Observation P ι → Trace P ι → Prop
  | .registered _, past => iterating past = false
  | _, _ => True

namespace World

/-- The trace shows a loop exactly while the mutex is held, and no append inside one. -/
structure Bracketed (w : World P ι) : Prop where
  loop : iterating w.trace = w.control.locked
  appends : Always AppendsOutsideLoops w.trace

variable {w w' : World P ι}

theorem Bracketed.enlist (h : ι) (bracketed : w.Bracketed)
    (free : w.control.locked = false) : (w.enlist h).Bracketed := by
  have outside : iterating w.trace = false := bracketed.loop.trans free
  cases pending : w.server.pendingReply with
  | some q =>
      rw [enlist_of_pending pending]
      exact ⟨outside.trans free.symm, outside, bracketed.appends⟩
  | none =>
      rw [enlist_of_idle pending]
      exact ⟨outside.trans free.symm, outside, trivial, bracketed.appends⟩

theorem Initial.bracketed (init : w.Initial) : w.Bracketed where
  loop := by rw [init.trace, init.control]; rfl
  appends := by rw [init.trace]; trivial

variable [DecidableEq ι]

theorem Bracketed.action {e : Event P ι} (bracketed : w.Bracketed) (action : Action w e w') :
    w'.Bracketed := by
  have loop := bracketed.loop
  have appends := bracketed.appends
  cases action with
  | postNow user free idle =>
      exact ⟨by simpa [iterating] using loop, by simpa [AppendsOutsideLoops]⟩
  | postDeferred user free pending =>
      have outside := loop.trans free
      exact ⟨by simpa [iterating] using loop, by simpa [AppendsOutsideLoops, iterating, outside]⟩
  | postBlocked inLoop =>
      rw [inLoop] at loop
      exact ⟨loop, trivial, appends⟩
  | setSecret | setDefaultSecret => exact ⟨loop, trivial, appends⟩
  | configure | arrived | destroyed => exact ⟨loop, appends⟩
  | returned callback =>
      refine ⟨?_, appends⟩
      rcases callback with ⟨h, control⟩ | control
      · rw [control] at loop
        exact loop
      · rw [control] at loop
        exact loop
  | resumed callback =>
      rw [callback] at loop
      exact ⟨loop, appends⟩
  | notifyUpdated inLoop =>
      rw [inLoop] at loop
      exact ⟨by simpa [iterating, Control.locked] using loop, by simpa [AppendsOutsideLoops]⟩
  | notifyFailed inLoop =>
      rw [inLoop] at loop
      exact ⟨loop, trivial, trivial, appends⟩
  | endUpdated | endFailed => exact ⟨rfl, trivial, appends⟩
  | slotNull => exact ⟨loop, trivial, appends⟩
  | slotOutcome finishing =>
      rw [finishing.loop] at loop
      exact ⟨loop, trivial, trivial, appends⟩
  | @slotRetry h r q finishing pending rejected =>
      rw [finishing.loop] at loop
      have closed : (((w.enterSlot h r).takePending h q).spendRetry h q).Bracketed := by
        refine ⟨?_, trivial, trivial, appends⟩
        rw [control_spendRetry, control_takePending, control_enterSlot, finishing.loop]
        exact loop
      apply closed.enlist h
      rw [control_spendRetry, control_takePending, control_enterSlot, finishing.loop]
      rfl
  | serverRetry => exact ⟨loop, trivial, trivial, appends⟩
  | serverFailed => exact ⟨rfl, trivial, trivial, appends⟩
  | serverUpdated => exact ⟨rfl, trivial, trivial, trivial, appends⟩

/-- Nothing is ever appended to the list while a loop iterates over it. -/
theorem appends_outside_loops {es : List (Event P ι)} (init : w.Initial)
    (run : FreeRun World.step w es w') : Always AppendsOutsideLoops w'.trace := by
  have kept : w'.Inv ∧ w'.Bracketed :=
    run.invariant (I := fun w => w.Inv ∧ w.Bracketed)
      (fun both _ stepped =>
        ⟨both.1.step stepped, both.2.action (step_action both.1 stepped)⟩)
      ⟨init.inv, init.bracketed⟩
  exact kept.2.appends

/-- One step leaves the thread running exactly when it is no `post` under the lock. -/
theorem relocked_step {e : Event P ι} (inv : w.Inv) (stepped : w.step e = some w') :
    w'.control ≠ .deadlock ↔ w.control ≠ .deadlock ∧ PostsReleased w e := by
  cases step_action inv stepped with
  | postNow user free idle | postDeferred user free pending =>
      have released : w.control.inFailure = false := by
        cases control : w.control with
        | failed => rw [control] at free; cases free
        | loop | response | updating | failing | signal | deadlock => rfl
      simp [PostsReleased, released]
  | postBlocked inLoop => simp [block, PostsReleased, inLoop, Control.inFailure]
  | @configure c s plain noPost =>
      have released : PostsReleased w (.call c) := by
        cases c with
        | post h endpoint content => exact absurd rfl (noPost h endpoint content)
        | setSecret | setDefaultSecret | setSchemeAndHost | setUserAgent | setTimeDeltaSlug
        | setTimeDelta => trivial
      simp [released]
  | setSecret => simp [setSecret, setHandler, note, PostsReleased]
  | setDefaultSecret => simp [setDefaultSecret, PostsReleased]
  | returned callback =>
      rcases callback with ⟨h, control⟩ | control
      · simp [control, PostsReleased]
      · simp [control, PostsReleased]
  | resumed inLoop | notifyUpdated inLoop | endUpdated inLoop | notifyFailed inLoop
  | endFailed inLoop => simp [inLoop, PostsReleased]
  | arrived | destroyed => simp [PostsReleased]
  | slotNull finishing | slotOutcome finishing | slotRetry finishing | serverRetry finishing =>
      simp [finishing.loop, PostsReleased]
  | serverFailed finishing | serverUpdated finishing =>
      simp [startLoop, finishing.loop, PostsReleased]

/-- **The mutex is never locked by the thread that holds it, and the list never grows under a
loop, in exactly the runs that make no `post` from a callback of the failure loop.** -/
theorem never_relocked_iff {es : List (Event P ι)} (init : w.Initial)
    (run : FreeRun World.step w es w') :
    (w'.control ≠ .deadlock ∧ Always AppendsOutsideLoops w'.trace) ↔
      Run World.step PostsReleased w es w' := by
  have running : w'.control ≠ .deadlock ↔ Run World.step PostsReleased w es w' := by
    refine run.iff_of_step (Q := fun w => w.control ≠ .deadlock)
      (fun inv _ stepped => Inv.step inv stepped)
      (fun inv _ stepped => relocked_step inv stepped) init.inv ?_
    rw [init.control]
    nofun
  rw [← running]
  exact and_iff_left (appends_outside_loops init run)

/-- The update a 401 started fails three times; the callback that reports it posts again. -/
theorem post_from_failure_relocks :
    ∃ w', FreeRun World.step Sample.world
        ([Sample.secret, Sample.postByte 1] ++ Sample.completes 0 Sample.rejected ++
          Sample.completes 1 Sample.refused ++ Sample.completes 2 Sample.refused ++
          Sample.completes 3 Sample.refused ++ [.next, Sample.postByte 2]) w' ∧
      w'.control = .deadlock :=
  ⟨_, run_of_isSome (by decide), by decide⟩

/-- The same run with the post made from the server's own signal. -/
theorem post_from_signal_released :
    ∃ w', Run World.step PostsReleased Sample.world
        ([Sample.secret, Sample.postByte 1] ++ Sample.completes 0 Sample.rejected ++
          Sample.completes 1 Sample.refused ++ Sample.completes 2 Sample.refused ++
          Sample.completes 3 Sample.refused ++ [.next, .ret, .next, Sample.postByte 2]) w' ∧
      w'.control ≠ .deadlock ∧ Always AppendsOutsideLoops w'.trace :=
  exists_run (by decide) fun _ released =>
    (never_relocked_iff Sample.world_initial released.free).mpr released

end World

end RestApiOut
