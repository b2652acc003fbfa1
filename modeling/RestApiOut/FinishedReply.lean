import RestApiOut.Sample

/-!
# Which reply a handler's slot reads

`responseReceived` reads `pendingReply`, not the reply whose `finished` signal called it.  The two
are the same exactly while no `finished` signal of a superseded reply is delivered
(`reads_finished_iff`): supersession calls `deleteLater`, which does not take back a signal that
is already queued.  `stale_finish_reads_live_reply` is the shortest run in which they differ.
-/

namespace RestApiOut

open Transition History

variable {P : Platform} {ι : Type}

/-- The latest observation is the slot of `h` reading `cause` because `cause` finished. -/
def justFinished [DecidableEq ι] (h : ι) (cause : ReplyId) : Trace P ι → Bool
  | .slot h' trigger pending :: _ => h' = h && trigger = cause && pending = some cause
  | _ => false

theorem justFinished_slot [DecidableEq ι] {h : ι} {cause trigger : ReplyId}
    {pending : Option ReplyId} {past : Trace P ι} :
    justFinished h cause (.slot h trigger pending :: past) ↔
      trigger = cause ∧ pending = some cause := by
  simp [justFinished]

/-- Every slot reads the reply that finished, and every outcome and retry comes from there. -/
def ReadsFinished [DecidableEq ι] : Observation P ι → Trace P ι → Prop
  | .slot _ trigger pending, _ => pending = some trigger
  | .outcome h (some cause) _, past => justFinished h cause past
  | .retry h cause, past => justFinished h cause past
  | _, _ => True

instance [DecidableEq ι] : ∀ (o : Observation P ι) (past : Trace P ι),
    Decidable (ReadsFinished o past)
  | .slot _ _ _, _ => inferInstanceAs (Decidable (_ = _))
  | .outcome h (some cause) _, past | .retry h cause, past =>
      inferInstanceAs (Decidable (justFinished h cause past = true))
  | .outcome _ none _, _ | .posted _ _ _ _, _ | .sent _ _ _ _, _
  | .registered _, _ | .asked _ _, _ | .answered _ _, _ | .accepted _, _ | .notifying _, _
  | .notified _ _, _ | .released _, _ | .secretSet _ _, _ | .defaultSecretSet _, _ =>
      isTrue trivial

/-- No `finished` signal of a reply on which `deleteLater` was called is delivered. -/
def FinishesKept (w : World P ι) : Event P ι → Prop
  | .finish r => w.network.discarded r = false
  | _ => True

instance (w : World P ι) : ∀ e, Decidable (FinishesKept w e)
  | .finish _ => inferInstanceAs (Decidable (_ = _))
  | .call _ | .ret | .next | .arrive _ _ | .destroyReply _ => isTrue trivial

namespace World

variable {w w' : World P ι} {h : ι} {r : ReplyId}

/-- A finishing reply is the handler's `pendingReply` unless it has been superseded. -/
theorem Inv.pending_iff_kept (inv : w.Inv) (finishing : w.Finishing r (.handler h)) :
    (w.handler h).pendingReply = some r ↔ w.network.discarded r = false := by
  constructor
  · intro own
    exact (inv.held h r own).2.2
  · intro kept
    exact inv.owner h r finishing.live finishing.receiver kept

/-- The server's reply is never superseded. -/
theorem Inv.server_kept (inv : w.Inv) (finishing : w.Finishing r .server) :
    w.network.discarded r = false := by
  obtain ⟨awaited, unlocked⟩ := inv.asked r finishing.live finishing.receiver
  exact (inv.outstanding r awaited unlocked).2.2

variable [DecidableEq ι]

/-- One step keeps every slot on its own reply exactly when it delivers no superseded reply. -/
theorem reads_finished_step {e : Event P ι} (inv : w.Inv) (stepped : w.step e = some w') :
    Always ReadsFinished w'.trace ↔ Always ReadsFinished w.trace ∧ FinishesKept w e := by
  cases step_action inv stepped with
  | slotNull finishing null =>
      have kept := inv.pending_iff_kept finishing
      simp only [trace_enterSlot, always_cons, ReadsFinished, FinishesKept, kept, and_comm]
  | slotOutcome finishing pending final =>
      have kept := inv.pending_iff_kept finishing
      simp only [trace_respond, trace_takePending, trace_enterSlot, always_cons, ReadsFinished,
        justFinished_slot, FinishesKept, ← kept, pending, Option.some.injEq]
      constructor
      · rintro ⟨-, same, before⟩
        exact ⟨before, same⟩
      · rintro ⟨before, same⟩
        exact ⟨⟨same.symm, trivial⟩, same, before⟩
  | slotRetry finishing pending rejected =>
      have kept := inv.pending_iff_kept finishing
      rw [always_enlist (fun _ => trivial) (fun _ _ _ => trivial)]
      simp only [trace_spendRetry, trace_takePending, trace_enterSlot, always_cons, ReadsFinished,
        justFinished_slot, FinishesKept, ← kept, pending, Option.some.injEq]
      constructor
      · rintro ⟨-, same, before⟩
        exact ⟨before, same⟩
      · rintro ⟨before, same⟩
        exact ⟨⟨same.symm, trivial⟩, same, before⟩
  | serverRetry finishing | serverFailed finishing | serverUpdated finishing =>
      simp [ReadsFinished, FinishesKept, inv.server_kept finishing]
  | postNow | postDeferred | postBlocked | setSecret | setDefaultSecret | configure | returned
  | resumed | notifyUpdated | endUpdated | notifyFailed | endFailed | arrived | destroyed =>
      simp [ReadsFinished, FinishesKept]

/-- **A handler's slot reads the reply that finished, in exactly the runs that deliver no
`finished` signal of a superseded reply.** -/
theorem reads_finished_iff {es : List (Event P ι)} (init : w.Initial)
    (run : FreeRun World.step w es w') :
    Always ReadsFinished w'.trace ↔ Run World.step FinishesKept w es w' := by
  refine run.iff_of_step (Q := fun w => Always ReadsFinished w.trace)
    (fun inv _ stepped => Inv.step inv stepped)
    (fun inv _ stepped => reads_finished_step inv stepped) init.inv ?_
  rw [init.trace]
  trivial

/-- A reply finishes after its successor has been sent: its slot reads the successor, which has
not finished, reports an empty success and throws the live request away. -/
theorem stale_finish_reads_live_reply :
    ∃ w', FreeRun World.step Sample.world
        [Sample.secret, Sample.postByte 1, .arrive 0 Sample.succeeded, Sample.postByte 2,
          .finish 0] w' ∧
      ¬ Always ReadsFinished w'.trace ∧
      w'.network.arrived 1 = false ∧ w'.network.discarded 1 = true :=
  ⟨_, run_of_isSome (by decide), by decide, by decide, by decide⟩

/-- Overlapping posts; the superseded reply is destroyed without finishing. -/
theorem reads_finished_after_overlap :
    ∃ w', Run World.step FinishesKept Sample.world
        [Sample.secret, Sample.postByte 1, Sample.postByte 2, .destroyReply 0,
          .arrive 1 Sample.succeeded, .finish 1] w' ∧ Always ReadsFinished w'.trace :=
  exists_run (by decide) fun _ kept => (reads_finished_iff Sample.world_initial kept.free).mpr kept

end World

end RestApiOut
