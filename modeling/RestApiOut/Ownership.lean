import RestApiOut.Settling

/-!
# Who owns a reply

`Server::post` hands a reply to the handler that sent the message, `issueTimeDeltaRequest` one to
the server; whoever got it keeps it in `pendingReply` until `deleteLater` is called on it.
`replies_owned` says that this is all that ever happens to a reply: between its post and its
`deleteLater` it has exactly one owner and is on the wire, and afterwards nobody holds it.  No reply
is leaked, shared or kept beyond its `deleteLater`, under any use.

The invariant is `Collected`: a reply that left the wire has been given to `deleteLater`.  What is
on the wire has an owner by `Inv.owner` and `Inv.asked`.
-/

namespace RestApiOut

open Transition

variable {P : Platform} {ι : Type}

namespace World

variable {w w' : World P ι} {h : ι} {q r : ReplyId} {slot : Receiver ι}

/-- The server drops its reply when it starts a notification loop, although `pendingReply` keeps
the pointer until the loop ends. -/
def Owns (w : World P ι) (r : ReplyId) : Receiver ι → Prop
  | .server => w.server.pendingReply = some r ∧ w.control.locked = false
  | .handler h => (w.handler h).pendingReply = some r

instance (w : World P ι) (r : ReplyId) : ∀ slot, Decidable (w.Owns r slot)
  | .server => inferInstanceAs (Decidable (_ ∧ _))
  | .handler _ => inferInstanceAs (Decidable (_ = _))

def Collected (w : World P ι) : Prop :=
  ∀ r < w.network.next, r ∉ w.network.live → w.network.discarded r = true

theorem Initial.collected (init : w.Initial) : w.Collected := by
  intro r posted
  rw [init.network] at posted
  exact absurd posted (Nat.not_lt_zero r)

/-- What is owned is on the wire, connected to its owner. -/
theorem Inv.of_owns (inv : w.Inv) (owns : w.Owns r slot) :
    r ∈ w.network.live ∧ w.network.receiver r = some slot ∧ w.network.discarded r = false := by
  cases slot with
  | server => exact inv.outstanding r owns.1 owns.2
  | handler h => exact inv.held h r owns

/-- What is on the wire and has not been discarded is owned. -/
theorem Inv.owns_of_kept (inv : w.Inv) (live : r ∈ w.network.live)
    (receiver : w.network.receiver r = some slot) (kept : w.network.discarded r = false) :
    w.Owns r slot := by
  cases slot with
  | server => exact inv.asked r live receiver
  | handler h => exact inv.owner h r live receiver kept

/-- Nothing leaves the wire and nothing is posted. -/
theorem Collected.of_frame (collected : w.Collected) (next : w'.network.next = w.network.next)
    (live : w'.network.live = w.network.live)
    (discarded : ∀ r, w.network.discarded r = true → w'.network.discarded r = true) :
    w'.Collected := by
  intro r posted left
  apply discarded
  apply collected r (next ▸ posted)
  rwa [← live]

/-- A reply leaves the wire after `deleteLater`. -/
theorem Collected.of_retire (collected : w.Collected) (next : w'.network.next = w.network.next)
    (live : w'.network.live = w.network.live.erase r)
    (discarded : ∀ q, w.network.discarded q = true → w'.network.discarded q = true)
    (gone : w'.network.discarded r = true) : w'.Collected := by
  intro q posted left
  rcases eq_or_ne q r with rfl | other
  · exact gone
  · apply discarded
    apply collected q (next ▸ posted)
    intro member
    apply left
    rw [live]
    exact Finset.mem_erase.mpr ⟨other, member⟩

/-- A new reply is on the wire. -/
theorem Collected.of_post (collected : w.Collected) (posted : w'.network = w.network.post slot) :
    w'.Collected := by
  intro q old left
  rw [posted, Network.next_post] at old
  rw [posted, Network.live_post, Finset.mem_insert, not_or] at left
  rw [posted, Network.discarded_post, if_neg left.1]
  exact collected q (Nat.lt_of_le_of_ne (Nat.le_of_lt_succ old) left.1) left.2

theorem discarded_of_deleteLater {n : Network ι} (gone : n.discarded q = true) :
    (n.deleteLater r).discarded q = true := by
  rw [Network.discarded_deleteLater, gone, Bool.true_or]

theorem discarded_deleteLater_self {n : Network ι} (posted : r < n.next) :
    (n.deleteLater r).discarded r = true := by
  rw [Network.discarded_deleteLater, decide_eq_true ⟨rfl, posted⟩, Bool.or_true]

theorem Collected.enlist (collected : w.Collected) (h : ι) : (w.enlist h).Collected := by
  cases pending : w.server.pendingReply with
  | some t =>
      rw [enlist_of_pending pending]
      exact collected
  | none =>
      rw [enlist_of_idle pending]
      exact Collected.of_post (w := w) collected rfl

theorem Collected.discardPending (collected : w.Collected) (h : ι) :
    ({ w with network := w.discardPending h } : World P ι).Collected := by
  refine collected.of_frame (next_discardPending w h) (live_discardPending w h) fun q gone => ?_
  rw [discarded_discardPending, gone, Bool.true_or]

/-- The server's slot discards the reply that finished. -/
theorem Collected.closeServer (collected : w.Collected) (finishing : w.Finishing r .server)
    (network : w'.network = w.readNetwork r) : w'.Collected := by
  refine collected.of_retire (r := r) ?_ ?_ (fun p gone => ?_) ?_
  · rw [network]
    rfl
  · rw [network]
    rfl
  · rw [network]
    exact discarded_of_deleteLater gone
  · rw [network]
    exact discarded_deleteLater_self (w.network.live_lt r finishing.live)

variable [DecidableEq ι]

theorem Collected.timestampUpdated (collected : w.Collected) (h : ι) :
    (w.timestampUpdated h).Collected :=
  (collected.discardPending h).of_post (network_timestampUpdated w h)

/-- A handler's slot discards the reply it reads; the one that finished is that one or had been
discarded before. -/
theorem Collected.closeSlot (collected : w.Collected) (inv : w.Inv)
    (finishing : w.Finishing r (.handler h)) (pending : (w.handler h).pendingReply = some q) :
    ((w.enterSlot h r).takePending h q).Collected := by
  refine collected.of_retire rfl rfl (fun p gone => discarded_of_deleteLater gone) ?_
  rcases eq_or_ne q r with rfl | other
  · exact discarded_deleteLater_self (w.network.live_lt q finishing.live)
  · apply discarded_of_deleteLater
    apply inv.discarded_of_ne finishing
    rw [pending]
    exact fun same => other (Option.some.inj same)

theorem Collected.action {e : Event P ι} (collected : w.Collected) (inv : w.Inv)
    (action : Action w e w') : w'.Collected := by
  cases action with
  | @postNow h endpoint content =>
      exact Collected.timestampUpdated (w := w.beginPost h endpoint content) collected h
  | @notifyUpdated h rest =>
      exact Collected.timestampUpdated (w := w.note (.notified h true)) collected h
  | @notifyFailed h rest =>
      exact Collected.discardPending (w := w.note (.notified h false)) collected h
  | arrived =>
      refine collected.of_frame rfl rfl fun q gone => ?_
      rw [Network.discarded_arrive]
      exact gone
  | destroyed loop live gone => exact collected.of_retire rfl rfl (fun _ gone => gone) gone
  | slotNull finishing null =>
      refine collected.of_retire rfl rfl (fun _ gone => gone) ?_
      apply inv.discarded_of_ne finishing
      rw [null]
      nofun
  | slotOutcome finishing pending => exact collected.closeSlot inv finishing pending
  | slotRetry finishing pending rejected =>
      apply Collected.enlist
      exact collected.closeSlot inv finishing pending
  | @serverRetry r finishing refused left =>
      have read : ((w.enterServer r).discard r).Collected := collected.closeServer finishing rfl
      exact read.of_post rfl
  | serverFailed finishing | serverUpdated finishing => exact collected.closeServer finishing rfl
  | postDeferred | postBlocked | setSecret | setDefaultSecret | configure | returned | resumed
  | endUpdated | endFailed => exact collected

/-- **Every reply has one owner until its `deleteLater`, and none after it.** Whatever the
application and the network do, a reply that was posted is on the wire, undiscarded and held by
exactly one object, the one its `finished` signal is connected to; or it has been given to
`deleteLater` and nobody holds it.  At rest only the second is left. -/
theorem replies_owned {es : List (Event P ι)} (init : w.Initial)
    (run : FreeRun World.step w es w') :
    (∀ r < w'.network.next,
      (w'.network.discarded r = true ∧ ∀ slot, ¬ w'.Owns r slot) ∨
        (w'.network.discarded r = false ∧ r ∈ w'.network.live ∧
          ∃ slot, w'.network.receiver r = some slot ∧ ∀ other, w'.Owns r other ↔ other = slot)) ∧
      (w'.AtRest → ∀ r < w'.network.next, w'.network.discarded r = true) := by
  have kept : (w'.Inv ∧ w'.Routed) ∧ w'.Collected :=
    run.invariant (I := fun w => (w.Inv ∧ w.Routed) ∧ w.Collected)
      (fun kept _ stepped => by
        obtain ⟨⟨inv, routed⟩, collected⟩ := kept
        have action := step_action inv stepped
        exact ⟨⟨inv.step stepped, routed.action action⟩, collected.action inv action⟩)
      ⟨⟨init.inv, init.routed⟩, init.collected⟩
  obtain ⟨⟨inv, routed⟩, collected⟩ := kept
  refine ⟨fun r posted => ?_, fun rest r posted => ?_⟩
  · cases gone : w'.network.discarded r with
    | true =>
        refine .inl ⟨rfl, fun slot owns => ?_⟩
        have kept := (inv.of_owns owns).2.2
        rw [gone] at kept
        cases kept
    | false =>
        have live : r ∈ w'.network.live := by
          by_contra left
          rw [collected r posted left] at gone
          cases gone
        obtain ⟨slot, receiver⟩ := Option.ne_none_iff_exists'.mp (routed r posted)
        refine .inr ⟨rfl, live, slot, receiver, fun other => ?_⟩
        constructor
        · intro owns
          have receiver' := (inv.of_owns owns).2.1
          rw [receiver] at receiver'
          exact (Option.some.inj receiver').symm
        · rintro rfl
          exact inv.owns_of_kept live receiver gone
  · apply collected r posted
    rw [rest.quiet]
    exact Finset.notMem_empty r

/-- Of four replies one has been superseded and one rejected, one is held by its handler and one by
the server. -/
theorem replies_owned_after_overlap :
    ∃ w', FreeRun World.step Sample.world
        ([Sample.secret, Sample.postByte 1, Sample.postByte 2, Sample.postObject 3] ++
          Sample.completes 2 Sample.rejected ++ [Sample.postByte 4]) w' ∧
      w'.network.next = 4 ∧ w'.Owns 3 .server ∧
      ∀ r < w'.network.next,
        (w'.network.discarded r = true ∧ ∀ slot, ¬ w'.Owns r slot) ∨
          (w'.network.discarded r = false ∧ r ∈ w'.network.live ∧
            ∃ slot, w'.network.receiver r = some slot ∧
              ∀ other, w'.Owns r other ↔ other = slot) :=
  ⟨_, run_of_isSome (by decide), by decide, by decide,
    (replies_owned Sample.world_initial (run_of_isSome (by decide))).1⟩

end World

end RestApiOut
