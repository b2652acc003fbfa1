import RestApiOut.Termination
import RestApiOut.SerialUse
import RestApiOut.Wire

/-!
# Settling

Left to itself, with the application calling nothing, the program runs to an end: `World.budget`
weighs everything that can still happen (results to arrive, signals and deferred deletions to
deliver, callbacks owed and made, retries of handlers and of the server) and every event lowers it,
whatever the network answers and in whatever order.  `stuck_iff` says where it ends: with the
thread blocked for good, or in the event loop with nothing on the wire and nobody waiting.

The slot of a handler dereferences `pendingReply`; `Defined` leaves out the steps that would find it
null, at which the program would die.

* `settles`: every defined run without calls is at most as long as the budget, and one that cannot
  be extended ends at rest.
* `every_post_answered`: in serial use the thread never blocks, so when the program has settled
  every post has had its one outcome.
-/

namespace RestApiOut

open Transition

variable {P : Platform} {ι : Type}

/-- The application calls nothing. -/
def Silent (_ : World P ι) : Event P ι → Prop
  | .call _ => False
  | _ => True

instance (w : World P ι) : ∀ e, Decidable (Silent w e)
  | .call _ => isFalse id
  | .ret | .next | .arrive _ _ | .finish _ | .destroyReply _ => isTrue trivial

/-- No slot of a handler is called that finds `pendingReply` null and dereferences it. -/
def Defined (w : World P ι) : Event P ι → Prop
  | .finish r =>
      match w.network.receiver r with
      | some (.handler h) => (w.handler h).pendingReply ≠ none
      | _ => True
  | _ => True

instance (w : World P ι) : ∀ e, Decidable (Defined w e)
  | .finish r =>
      match slot : w.network.receiver r with
      | some (.handler h) =>
          decidable_of_iff ((w.handler h).pendingReply ≠ none) (by simp only [Defined, slot])
      | some .server | none => isTrue (by simp only [Defined, slot])
  | .call _ | .ret | .next | .arrive _ _ | .destroyReply _ => isTrue trivial

/-! ## What is on the wire -/

namespace Network

variable {n : Network ι} {q r : ReplyId}

@[simp] theorem arrived_post (slot : Receiver ι) : (n.post slot).arrived r = n.arrived r := by
  rw [arrived, arrived, reply_result_post]

@[simp] theorem arrived_deleteLater : (n.deleteLater q).arrived r = n.arrived r := by
  rw [arrived, arrived, reply_result_deleteLater]

variable [DecidableEq ι]

/-- A reply has yet to arrive, and its completion makes a handler report something and return. -/
def replyCost (n : Network ι) (r : ReplyId) : Nat :=
  (if n.arrived r then 0 else 1) + if n.receiver r = some .server then 0 else 2

def wireCost (n : Network ι) : Nat := ∑ r ∈ n.live, n.replyCost r

/-- `replyCost` as a weight of the reply itself. -/
def replyWeight (x : Reply ι) : Nat :=
  (if x.result.isSome then 0 else 1) + if x.receiver = some .server then 0 else 2

theorem wireCost_eq (n : Network ι) : n.wireCost = n.weigh replyWeight := rfl

theorem wireCost_deleteLater : (n.deleteLater q).wireCost = n.wireCost :=
  weigh_deleteLater replyWeight fun _ => rfl

/-- A new reply has yet to arrive. -/
theorem wireCost_post (slot : Receiver ι) :
    (n.post slot).wireCost = n.wireCost + (1 + if slot = .server then 0 else 2) := by
  rw [wireCost_eq, weigh_post, wireCost_eq]
  simp [replyWeight]

theorem wireCost_retire (live : r ∈ n.live) :
    (n.retire r).wireCost + n.replyCost r = n.wireCost :=
  weigh_retire replyWeight live

theorem wireCost_arrive (result : ReplyResult) (live : r ∈ n.live) (first : n.arrived r = false) :
    (n.arrive r result).wireCost + 1 = n.wireCost := by
  have arrives := weigh_arrive replyWeight result live
  unfold arrived at first
  simp only [replyWeight, first, Option.isSome_some, if_true, Bool.false_eq_true,
    if_false] at arrives
  rw [wireCost_eq, wireCost_eq]
  omega

end Network

/-! ## Where it ends -/

namespace World

variable {w w' : World P ι} {h : ι} {r : ReplyId}

/-- Every posted reply has a slot its `finished` signal is connected to. -/
def Routed (w : World P ι) : Prop := ∀ r < w.network.next, w.network.receiver r ≠ none

/-- The thread is in the event loop, nothing is on the wire and nobody waits for anything. -/
structure AtRest (w : World P ι) : Prop where
  loop : w.control = .loop
  quiet : w.network.live = ∅
  idle : w.server.pendingReply = none
  nobody : w.server.waitingRestApis = []
  noReply : ∀ h, (w.handler h).pendingReply = none

theorem Initial.routed (init : w.Initial) : w.Routed := by
  intro r posted
  rw [init.network] at posted
  exact absurd posted (Nat.not_lt_zero r)

theorem Routed.of_frame (routed : w.Routed) (next : w'.network.next = w.network.next)
    (receiver : ∀ r, w'.network.receiver r = w.network.receiver r) : w'.Routed := by
  intro r posted
  rw [receiver]
  exact routed r (next ▸ posted)

theorem Routed.of_post {n : Network ι} {slot : Receiver ι} (routed : w.Routed)
    (next : n.next = w.network.next) (receiver : ∀ r, n.receiver r = w.network.receiver r)
    (posted : w'.network = n.post slot) : w'.Routed := by
  intro r old
  rw [posted, Network.next_post] at old
  rw [posted, Network.receiver_post]
  split
  · exact Option.some_ne_none slot
  · rename_i other
    rw [receiver]
    exact routed r (next ▸ Nat.lt_of_le_of_ne (Nat.le_of_lt_succ old) other)

theorem Routed.enlist (routed : w.Routed) (h : ι) : (w.enlist h).Routed := by
  cases pending : w.server.pendingReply with
  | some t =>
      rw [enlist_of_pending pending]
      exact routed
  | none =>
      rw [enlist_of_idle pending]
      exact routed.of_post rfl (fun _ => rfl) rfl

/-- Between events nothing but the network and the application keeps the program from going on. -/
theorem AtRest.of_quiet (inv : w.Inv) (loop : w.control = .loop) (quiet : w.network.live = ∅) :
    w.AtRest := by
  have free : w.control.locked = false := by rw [loop]; rfl
  have gone : ∀ r, r ∉ w.network.live := fun r live => by
    rw [quiet] at live
    exact absurd live (Finset.notMem_empty r)
  have idle : w.server.pendingReply = none := by
    cases pending : w.server.pendingReply with
    | none => rfl
    | some r => exact absurd (inv.outstanding r pending free).1 (gone r)
  refine ⟨loop, quiet, idle, inv.waiting idle, fun h => ?_⟩
  cases pending : (w.handler h).pendingReply with
  | none => rfl
  | some r => exact absurd (inv.held h r pending).1 (gone r)

variable [DecidableEq ι]

theorem Routed.timestampUpdated (routed : w.Routed) (h : ι) : (w.timestampUpdated h).Routed :=
  routed.of_post (next_discardPending w h) (receiver_discardPending w h)
    (network_timestampUpdated w h)

theorem Routed.action {e : Event P ι} (routed : w.Routed) (action : Action w e w') :
    w'.Routed := by
  cases action with
  | @postNow h endpoint content =>
      exact Routed.timestampUpdated (w := w.beginPost h endpoint content) routed h
  | @notifyUpdated h rest =>
      exact Routed.timestampUpdated (w := w.note (.notified h true)) routed h
  | @slotRetry h r q =>
      apply Routed.enlist
      exact routed.of_frame rfl fun _ => Network.receiver_deleteLater
  | serverRetry =>
      exact routed.of_post (n := (w.network.retire _).deleteLater _) rfl
        (fun _ => Network.receiver_deleteLater) rfl
  | @notifyFailed h rest =>
      exact routed.of_frame (next_discardPending _ h) (receiver_discardPending _ h)
  | arrived => exact routed.of_frame rfl fun _ => Network.receiver_arrive _
  | slotOutcome | serverFailed | serverUpdated =>
      exact routed.of_frame rfl fun _ => Network.receiver_deleteLater
  | postDeferred | postBlocked | setSecret | setDefaultSecret | configure | returned | resumed
  | endUpdated | endFailed | destroyed | slotNull => exact routed

/-- A finished reply that has a slot can be delivered. -/
theorem deliver_ne_none (routed : w.Routed) (live : r ∈ w.network.live) :
    w.deliver r ≠ none := by
  obtain ⟨slot, receiver⟩ :=
    Option.ne_none_iff_exists'.mp (routed r (w.network.live_lt r live))
  cases slot with
  | server => simp [deliver, receiver]
  | handler h => simp [deliver, receiver]

/-- The slot of a reply that has not been given up finds that reply. -/
theorem Inv.defined_of_kept {e : Event P ι} (inv : w.Inv) (kept : FinishesKept w e)
    (enabled : w.step e ≠ none) : Defined w e := by
  cases e with
  | finish r =>
      cases receiver : w.network.receiver r with
      | none => simp only [Defined, receiver]
      | some slot =>
          cases slot with
          | server => simp only [Defined, receiver]
          | handler h =>
              have live : r ∈ w.network.live := by
                by_contra gone
                simp [World.step, gone] at enabled
              have own := inv.owner h r live receiver kept
              simp only [Defined, receiver]
              exact own.trans_ne (Option.some_ne_none r)
  | call | ret | next | arrive | destroyReply => trivial

/-- **A thread that is not blocked stops nowhere else**, as long as replies that have not been given
up may finish; those that have are destroyed. -/
theorem stuck_iff {guard : World P ι → Event P ι → Prop} (inv : w.Inv) (routed : w.Routed)
    (running : w.control ≠ .deadlock) (silent : ∀ {e}, guard w e → Silent w e)
    (allows : ∀ {e}, Silent w e → FinishesKept w e → w.step e ≠ none → guard w e) :
    Stuck World.step guard w ↔ w.AtRest := by
  constructor
  · intro stuck
    have stops : ∀ e, Silent w e → FinishesKept w e → w.step e = none := by
      intro e quiet kept
      by_contra enabled
      exact enabled (stuck e (allows quiet kept enabled))
    have returns : w.return_ = none := stops .ret trivial trivial
    have iterates : w.iterate = none := stops .next trivial trivial
    have loop : w.control = .loop := by
      cases control : w.control with
      | loop => rfl
      | response | signal | failed => simp [return_, control] at returns
      | deadlock => exact absurd control running
      | updating rest | failing rest => cases rest <;> simp [iterate, control] at iterates
    refine .of_quiet inv loop (Finset.eq_empty_of_forall_notMem fun r live => ?_)
    cases arrived : w.network.arrived r with
    | false =>
        have arrives := stops (.arrive r .unfinished) trivial trivial
        simp [step, live, arrived] at arrives
    | true =>
        cases discarded : w.network.discarded r with
        | false =>
            have finishes := stops (.finish r) trivial discarded
            rw [step, if_pos ⟨loop, live, arrived⟩] at finishes
            exact deliver_ne_none routed live finishes
        | true =>
            have destroys := stops (.destroyReply r) trivial trivial
            simp [step, loop, live, discarded] at destroys
  · intro rest e allowed
    have gone : ∀ r, r ∉ w.network.live := fun r live => by
      rw [rest.quiet] at live
      exact absurd live (Finset.notMem_empty r)
    cases e with
    | call c => exact absurd (silent allowed) id
    | ret => simp [step, return_, rest.loop]
    | next => simp [step, iterate, rest.loop]
    | arrive r | finish r | destroyReply r => simp [step, gone r]

/-- What the settling argument needs of a state. -/
structure Sound (w : World P ι) : Prop where
  inv : w.Inv
  routed : w.Routed
  running : w.control ≠ .deadlock

theorem Sound.step {e : Event P ι} (sound : w.Sound) (silent : Silent w e)
    (stepped : w.step e = some w') : w'.Sound where
  inv := sound.inv.step stepped
  routed := sound.routed.action (step_action sound.inv stepped)
  running := by
    apply (relocked_step sound.inv stepped).mpr
    refine ⟨sound.running, ?_⟩
    cases e with
    | call c => exact absurd silent id
    | ret | next | arrive | finish | destroyReply => trivial

theorem Initial.sound {guard : World P ι → Event P ι → Prop} {es : List (Event P ι)}
    (init : w.Initial) (run : Run World.step guard w es w') (running : w'.control ≠ .deadlock) :
    w'.Sound := by
  have kept : w'.Inv ∧ w'.Routed :=
    run.invariant (I := fun w => w.Inv ∧ w.Routed)
      (fun both _ stepped =>
        ⟨both.1.step stepped, both.2.action (step_action both.1 stepped)⟩)
      ⟨init.inv, init.routed⟩
  exact ⟨kept.1, kept.2, running⟩

end World

/-! ## The budget -/

/-- The steps a notification loop or a callback takes by itself. -/
def Control.cost : Control ι → Nat
  | .loop | .deadlock => 0
  | .response _ | .signal => 1
  | .updating _ | .failing _ => 2
  | .failed _ _ => 3

namespace World

/-- What the update that runs may still take: two events a request, and the end of it. -/
def updateCost (w : World P ι) : Nat :=
  if w.server.pendingReply = none ∨ w.control.locked = true then 0
  else 2 * w.server.retriesRemaining + 3

/-- A bound on the events to come, if the application calls nothing.  A callback owed may send a
message; a retry of a handler makes it wait and may start an update. -/
def budget [DecidableEq ι] [Fintype ι] (w : World P ι) : Nat :=
  11 * ∑ h, (w.handler h).retriesRemaining + 4 * w.awaiting.length + w.network.wireCost +
    w.updateCost + w.control.cost

variable {w w' : World P ι} {h : ι} {q r : ReplyId}

theorem updateCost_of_running (pending : w.server.pendingReply ≠ none)
    (free : w.control.locked = false) :
    w.updateCost = 2 * w.server.retriesRemaining + 3 := by
  rw [updateCost, if_neg]
  rw [free]
  rintro (idle | locked)
  · exact pending idle
  · cases locked

theorem updateCost_of_locked (locked : w.control.locked = true) : w.updateCost = 0 := by
  rw [updateCost, if_pos (.inr locked)]

theorem updateCost_of_idle (idle : w.server.pendingReply = none) : w.updateCost = 0 := by
  rw [updateCost, if_pos (.inl idle)]

theorem updateCost_congr (pending : w'.server.pendingReply = w.server.pendingReply)
    (retries : w'.server.retriesRemaining = w.server.retriesRemaining)
    (locked : w'.control.locked = w.control.locked) : w'.updateCost = w.updateCost := by
  rw [updateCost, updateCost, pending, retries, locked]

variable [DecidableEq ι]

theorem wireCost_discardPending (w : World P ι) (h : ι) :
    (w.discardPending h).wireCost = w.network.wireCost := by
  unfold discardPending
  split
  · exact Network.wireCost_deleteLater
  · rfl

theorem wireCost_timestampUpdated (w : World P ι) (h : ι) :
    (w.timestampUpdated h).network.wireCost = w.network.wireCost + 3 := by
  rw [network_timestampUpdated, Network.wireCost_post, wireCost_discardPending,
    if_neg (by simp)]

/-- A finished reply of a handler was worth two. -/
theorem Finishing.wireCost_handler (finishing : w.Finishing r (.handler h)) :
    (w.network.retire r).wireCost + 2 = w.network.wireCost := by
  have cost : w.network.replyCost r = 2 := by
    simp [Network.replyCost, finishing.arrived, finishing.receiver]
  rw [← Network.wireCost_retire finishing.live, cost]

theorem Finishing.wireCost_server (finishing : w.Finishing r .server) :
    (w.network.retire r).wireCost = w.network.wireCost := by
  have cost : w.network.replyCost r = 0 := by
    simp [Network.replyCost, finishing.arrived, finishing.receiver]
  rw [← Network.wireCost_retire finishing.live, cost, Nat.add_zero]

/-- Waiting for the time costs at most a whole update. -/
theorem cost_enlist (h : ι) (free : w.control.locked = false) :
    (w.enlist h).network.wireCost + (w.enlist h).updateCost ≤
      w.network.wireCost + w.updateCost + 8 := by
  cases pending : w.server.pendingReply with
  | some t =>
      have update : (w.append h).updateCost = w.updateCost := updateCost_congr rfl rfl rfl
      rw [enlist_of_pending pending, network_append, update]
      exact Nat.le_add_right _ _
  | none =>
      have update : ((w.ask numberRetries).append h).updateCost = 2 * numberRetries + 3 :=
        updateCost_of_running (Option.some_ne_none _) free
      rw [enlist_of_idle pending, network_append, network_ask, Network.wireCost_post, if_pos rfl,
        update, updateCost_of_idle pending, numberRetries]

variable [Fintype ι]

/-- A step that leaves the retries of the handlers alone is judged by the rest. -/
theorem budget_lt (retries : ∀ k, (w'.handler k).retriesRemaining = (w.handler k).retriesRemaining)
    (rest : 4 * w'.awaiting.length + w'.network.wireCost + w'.updateCost + w'.control.cost <
      4 * w.awaiting.length + w.network.wireCost + w.updateCost + w.control.cost) :
    w'.budget < w.budget := by
  have same : ∑ k, (w'.handler k).retriesRemaining = ∑ k, (w.handler k).retriesRemaining :=
    Finset.sum_congr rfl fun k _ => retries k
  simp only [budget, same]
  omega

/-- A handler's slot that spends a retry pays for the wait and for the update it may start. -/
theorem budget_slotRetry (finishing : w.Finishing r (.handler h)) (rejected : w.Rejected h q) :
    ((((w.enterSlot h r).takePending h q).spendRetry h q).enlist h).budget < w.budget := by
  have free : (((w.enterSlot h r).takePending h q).spendRetry h q).control.locked = false := by
    simp [finishing.loop, Control.locked]
  have wire := finishing.wireCost_handler
  have taken : ((w.network.retire r).deleteLater q).wireCost = (w.network.retire r).wireCost :=
    Network.wireCost_deleteLater
  have waits : ((((w.enterSlot h r).takePending h q).spendRetry h q).enlist h).awaiting.length =
      w.awaiting.length + 1 := by
    rw [awaiting_enlist free, List.length_append]
    rfl
  have spent : ∑ k, (((((w.enterSlot h r).takePending h q).spendRetry h q).enlist h).handler
      k).retriesRemaining + 1 = ∑ k, (w.handler k).retriesRemaining := by
    refine sum_retries_spend (h := h) rejected.2 ?_ fun k other => ?_
    · simp
    · simp [other]
  have control : ((((w.enterSlot h r).takePending h q).spendRetry h q).enlist h).control.cost =
      w.control.cost := by
    rw [control_enlist]
    rfl
  have paid := cost_enlist h free
  have before : (((w.enterSlot h r).takePending h q).spendRetry h q).network.wireCost =
      (w.network.retire r).wireCost := taken
  have update : (((w.enterSlot h r).takePending h q).spendRetry h q).updateCost = w.updateCost :=
    updateCost_congr rfl rfl rfl
  simp only [budget, waits, control]
  omega

/-- A step that only moves control on. -/
theorem budget_control {c : Control ι} (locked : c.locked = w.control.locked)
    (rest : c.rest = w.control.rest) (lower : c.cost < w.control.cost) :
    ({ w with control := c } : World P ι).budget < w.budget := by
  have awaiting : ({ w with control := c } : World P ι).awaiting = w.awaiting := by
    rw [World.awaiting, World.awaiting, locked, rest]
  have update : ({ w with control := c } : World P ι).updateCost = w.updateCost :=
    updateCost_congr rfl rfl locked
  refine budget_lt (fun _ => rfl) ?_
  rw [awaiting, update]
  exact Nat.add_lt_add_left lower _

/-- A reply of a handler is taken off the wire, and the handler reports it or does nothing. -/
theorem budget_finish (finishing : w.Finishing r (.handler h))
    (wire : w'.network.wireCost = (w.network.retire r).wireCost)
    (server : w'.server = w.server) (locked : w'.control.locked = false)
    (cost : w'.control.cost ≤ 1)
    (retries : ∀ k, (w'.handler k).retriesRemaining = (w.handler k).retriesRemaining) :
    w'.budget < w.budget := by
  have awaiting : w'.awaiting = w.awaiting := by
    rw [awaiting_of_free locked, awaiting_of_free finishing.free, server]
  have update : w'.updateCost = w.updateCost :=
    updateCost_congr (by rw [server]) (by rw [server]) (locked.trans finishing.free.symm)
  have worth := finishing.wireCost_handler
  refine budget_lt retries ?_
  rw [awaiting, update, wire]
  omega

/-- The server's slot enters a loop when no retry is left or needed. -/
theorem budget_startLoop {v : World P ι} (inv : w.Inv) (finishing : w.Finishing r .server)
    (wire : v.network.wireCost = (w.network.retire r).wireCost)
    (waiting : v.server.waitingRestApis = w.server.waitingRestApis)
    (control : v.control = w.control) (handler : v.handler = w.handler) (updated : Bool) :
    (v.startLoop updated).budget < w.budget := by
  have free : v.control.locked = false := control ▸ finishing.free
  have pending := (inv.asked r finishing.live finishing.receiver).1
  have running := updateCost_of_running (Option.ne_none_iff_exists'.mpr ⟨r, pending⟩)
    finishing.free
  have awaiting : (v.startLoop updated).awaiting = w.awaiting := by
    rw [awaiting_startLoop free, awaiting_of_free free, awaiting_of_free finishing.free, waiting]
  have update : (v.startLoop updated).updateCost = 0 :=
    updateCost_of_locked (locked_startLoop v updated)
  have cost : (v.startLoop updated).control.cost = 2 := by cases updated <;> rfl
  refine budget_lt (fun k => by rw [handler_startLoop, handler]) ?_
  rw [awaiting, update, cost, network_startLoop, wire, finishing.wireCost_server, running]
  omega

/-- **Every event lowers the budget.** -/
theorem budget_step {e : Event P ι} (inv : w.Inv) (silent : Silent w e)
    (stepped : w.step e = some w') : w'.budget < w.budget := by
  cases step_action inv stepped with
  | postNow | postDeferred | postBlocked | setSecret | setDefaultSecret | configure =>
      exact absurd silent id
  | returned callback =>
      rcases callback with ⟨h, control⟩ | control
      · exact budget_control (by rw [control]; rfl) (by rw [control]; rfl)
          (by rw [control]; exact Nat.one_pos)
      · exact budget_control (by rw [control]; rfl) (by rw [control]; rfl)
          (by rw [control]; exact Nat.one_pos)
  | resumed inLoop =>
      exact budget_control (by rw [inLoop]; rfl) (by rw [inLoop]; rfl)
        (by rw [inLoop]; exact Nat.lt_succ_self 2)
  | @notifyUpdated h rest inLoop =>
      refine budget_lt (retriesRemaining_timestampUpdated _ h) ?_
      have wire : ((w.note (.notified h true)).timestampUpdated h).network.wireCost =
          w.network.wireCost + 3 := wireCost_timestampUpdated _ h
      rw [awaiting_mk_updating, awaiting_updating inLoop, List.length_cons,
        updateCost_of_locked rfl, inLoop]
      dsimp only [Control.cost]
      omega
  | @notifyFailed h rest inLoop =>
      refine budget_lt (retriesRemaining_timestampUpdateFailed _ h) ?_
      have wire : ((w.note (.notified h false)).timestampUpdateFailed h).network.wireCost =
          w.network.wireCost := wireCost_discardPending _ h
      rw [awaiting_mk_failed, awaiting_failing inLoop, List.length_cons, updateCost_of_locked rfl,
        inLoop]
      dsimp only [Control.cost]
      omega
  | endUpdated inLoop | endFailed inLoop =>
      refine budget_lt (fun _ => rfl) ?_
      rw [updateCost_of_idle rfl, inLoop]
      exact Nat.add_lt_add_of_le_of_lt (Nat.add_le_add (Nat.add_le_add_right (Nat.zero_le _) _)
        (Nat.zero_le _)) (Nat.lt_succ_self 1)
  | @arrived r result live first =>
      have wire := Network.wireCost_arrive result live first
      have update : ({ w with network := w.network.arrive r result } : World P ι).updateCost =
          w.updateCost := updateCost_congr rfl rfl rfl
      have awaiting : ({ w with network := w.network.arrive r result } : World P ι).awaiting =
          w.awaiting := rfl
      refine budget_lt (fun _ => rfl) ?_
      rw [update, awaiting]
      dsimp only
      omega
  | @destroyed r loop live discarded =>
      have wire := Network.wireCost_retire live
      have cost : 2 ≤ w.network.replyCost r := by
        have other : w.network.receiver r ≠ some .server := by
          intro slot
          obtain ⟨pending, free⟩ := inv.asked r live slot
          have kept := (inv.outstanding r pending free).2.2
          rw [discarded] at kept
          cases kept
        rw [Network.replyCost, if_neg other]
        exact Nat.le_add_left _ _
      have update : ({ w with network := w.network.retire r } : World P ι).updateCost =
          w.updateCost := updateCost_congr rfl rfl rfl
      have awaiting : ({ w with network := w.network.retire r } : World P ι).awaiting =
          w.awaiting := rfl
      refine budget_lt (fun _ => rfl) ?_
      rw [update, awaiting]
      dsimp only
      omega
  | slotNull finishing null =>
      refine budget_finish finishing rfl rfl finishing.free ?_ fun _ => rfl
      rw [control_enterSlot, finishing.loop]
      exact Nat.zero_le 1
  | @slotOutcome h r q o finishing pending final =>
      exact budget_finish finishing Network.wireCost_deleteLater rfl rfl (Nat.le_refl _)
        fun k => retriesRemaining_takePending _ h k q
  | slotRetry finishing pending rejected => exact budget_slotRetry finishing rejected
  | @serverRetry r finishing refused left =>
      have free := finishing.free
      have pending := (inv.asked r finishing.live finishing.receiver).1
      have running := updateCost_of_running (Option.ne_none_iff_exists'.mpr ⟨r, pending⟩) free
      have again : (((w.enterServer r).discard r).ask
          (w.server.retriesRemaining - 1)).updateCost =
          2 * (w.server.retriesRemaining - 1) + 3 :=
        updateCost_of_running (Option.some_ne_none _) free
      have wire : (((w.enterServer r).discard r).ask
          (w.server.retriesRemaining - 1)).network.wireCost = w.network.wireCost + 1 := by
        rw [network_ask, Network.wireCost_post, if_pos rfl, network_discard,
          Network.wireCost_deleteLater, network_enterServer, finishing.wireCost_server]
      have awaiting : (((w.enterServer r).discard r).ask
          (w.server.retriesRemaining - 1)).awaiting = w.awaiting := rfl
      refine budget_lt (fun _ => rfl) ?_
      rw [again, wire, awaiting, running, control_ask, control_discard, control_enterServer]
      omega
  | @serverFailed r finishing refused left =>
      have wire : ((w.enterServer r).discard r).network.wireCost =
          (w.network.retire r).wireCost := by
        rw [network_discard, Network.wireCost_deleteLater, network_enterServer]
      exact budget_startLoop inv finishing wire rfl rfl rfl false
  | @serverUpdated r delta finishing accepted =>
      have wire : ((w.enterServer r).accept r delta).network.wireCost =
          (w.network.retire r).wireCost := by
        rw [network_accept, Network.wireCost_deleteLater, network_enterServer]
      exact budget_startLoop inv finishing wire rfl rfl rfl true

/-! ## The program left to itself -/

section Guarded

variable {guard : World P ι → Event P ι → Prop}

/-- Runs without calls are short. -/
theorem Sound.length_le {fs : List (Event P ι)} (sound : w.Sound)
    (silent : ∀ {w e}, guard w e → Silent w e) (run : Run World.step guard w fs w') :
    fs.length + w'.budget ≤ w.budget :=
  run.length_add_rank_le (I := Sound) (fun sound ok stepped => sound.step (silent ok) stepped)
    (fun sound ok stepped => budget_step sound.inv (silent ok) stepped) sound

/-- Runs without calls stop. -/
theorem Sound.exists_stuck (sound : w.Sound) (guard : World P ι → Event P ι → Prop)
    (silent : ∀ {w e}, guard w e → Silent w e) :
    ∃ fs v, Run World.step guard w fs v ∧ Stuck World.step guard v :=
  exists_run_stuck (I := Sound) (fun sound ok stepped => sound.step (silent ok) stepped)
    (fun sound ok stepped => budget_step sound.inv (silent ok) stepped) sound

omit [Fintype ι] in
theorem Sound.run {fs : List (Event P ι)} (sound : w.Sound)
    (silent : ∀ {w e}, guard w e → Silent w e) (run : Run World.step guard w fs w') : w'.Sound :=
  run.invariant (I := Sound) (fun sound ok stepped => sound.step (silent ok) stepped) sound

end Guarded

/-- **The program settles.** From every state reached in which the thread is not blocked, and
whatever the network then answers in whatever order, the events without a call are bounded by the
budget; they run out exactly when the program is at rest, and there it arrives.  Only runs in which
no slot dereferences null are looked at: in another the program has died. -/
theorem settles {es : List (Event P ι)} (init : w.Initial) (run : Run World.step Defined w es w')
    (running : w'.control ≠ .deadlock) :
    (∀ fs v, Run World.step (fun w e => Silent w e ∧ Defined w e) w' fs v →
      fs.length + v.budget ≤ w'.budget ∧
        (Stuck World.step (fun w e => Silent w e ∧ Defined w e) v ↔ v.AtRest)) ∧
      ∃ fs v, Run World.step (fun w e => Silent w e ∧ Defined w e) w' fs v ∧ v.AtRest := by
  have sound := init.sound run running
  have ends : ∀ fs v, Run World.step (fun w e => Silent w e ∧ Defined w e) w' fs v →
      (Stuck World.step (fun w e => Silent w e ∧ Defined w e) v ↔ v.AtRest) := by
    intro fs v more
    have kept := sound.run And.left more
    exact stuck_iff kept.inv kept.routed kept.running And.left
      fun quiet finishes enabled => ⟨quiet, kept.inv.defined_of_kept finishes enabled⟩
  refine ⟨fun fs v more => ⟨sound.length_le And.left more, ends fs v more⟩, ?_⟩
  obtain ⟨fs, v, more, stuck⟩ :=
    sound.exists_stuck (fun w e => Silent w e ∧ Defined w e) And.left
  exact ⟨fs, v, more, (ends fs v more).mp stuck⟩

/-- Both retries of the time run out with two handlers waiting, and the application's code is called
from the failure loop: at most eighteen more events. -/
theorem settles_after_failed_update :
    ∃ w', Run World.step Defined Sample.world
        ([Sample.secret, Sample.postByte 1] ++ Sample.completes 0 Sample.rejected ++
          [Sample.postObject 1] ++ Sample.completes 1 Sample.refused ++
          Sample.completes 2 Sample.refused ++ Sample.completes 3 Sample.refused ++ [.next]) w' ∧
      w'.budget = 18 ∧
      ∃ fs v, Run World.step (fun w e => Silent w e ∧ Defined w e) w' fs v ∧ v.AtRest :=
  ⟨_, run_of_isSome (by decide), by decide,
    (settles Sample.world_initial (run_of_isSome (by decide)) (by decide)).2⟩

omit [Fintype ι] in
theorem serialUse_of_silent {e : Event P ι} (silent : Silent w e) : SerialUse w e := by
  cases e with
  | call c => exact absurd silent id
  | ret | next | arrive | finish | destroyReply => trivial

omit [Fintype ι] in
/-- Nothing but a call posts. -/
theorem posts_of_silent {e : Event P ι} (inv : w.Inv) (running : w'.control ≠ .deadlock)
    (silent : Silent w e) (stepped : w.step e = some w') (h : ι) :
    posts h w'.trace = posts h w.trace := by
  have move := (step_action inv stepped).account inv running h
  have quiet : e.postsOn h = false := by
    cases e with
    | call c => exact absurd silent id
    | ret | next | arrive | finish | destroyReply => rfl
  rw [quiet] at move
  exact move.posts_eq

/-- **Every post is answered.** In serial use the thread never blocks, so left to itself the program
comes to rest within the budget, and then every handler is idle and has had exactly one outcome
for each of its posts. -/
theorem every_post_answered {es : List (Event P ι)} (init : w.Initial)
    (run : Run World.step SerialUse w es w') :
    (∀ fs v, Run World.step Silent w' fs v → fs.length ≤ w'.budget ∧
      (Stuck World.step Silent v → v.AtRest ∧
        ∀ h, posts h v.trace = posts h w'.trace ∧ outcomes h v.trace = posts h w'.trace)) ∧
      ∃ fs v, Run World.step Silent w' fs v ∧ Stuck World.step Silent v := by
  have kept : w'.Inv ∧ w'.Serial :=
    run.invariant (I := fun w => w.Inv ∧ w.Serial)
      (fun both guarded stepped =>
        ⟨both.1.step stepped, both.2.step both.1 guarded stepped⟩) ⟨init.inv, init.serial⟩
  obtain ⟨inv, serial⟩ := kept
  have sound := init.sound run.free serial.running
  refine ⟨fun fs v silent => ?_, sound.exists_stuck Silent id⟩
  have short := sound.length_le id silent
  have kept := sound.run id silent
  have ends : Stuck World.step Silent v ↔ v.AtRest :=
    stuck_iff kept.inv kept.routed kept.running id fun quiet _ _ => quiet
  refine ⟨by omega, fun stuck => ⟨ends.mp stuck, fun h => ?_⟩⟩
  -- the silent steps are serial use as well, and none of them posts
  have after : (v.Inv ∧ v.Serial) ∧ posts h v.trace = posts h w'.trace :=
    silent.invariant (I := fun u => (u.Inv ∧ u.Serial) ∧ posts h u.trace = posts h w'.trace)
      (fun kept ok stepped => by
        obtain ⟨⟨inv, serial⟩, same⟩ := kept
        have serial' := serial.step inv (serialUse_of_silent ok) stepped
        have unposted := posts_of_silent inv serial'.running ok stepped h
        exact ⟨⟨inv.step stepped, serial'⟩, unposted.trans same⟩)
      ⟨⟨inv, serial⟩, rfl⟩
  obtain ⟨⟨inv', serial'⟩, same⟩ := after
  have rest := ends.mp stuck
  have idle := serial'.idle_of_quiet inv' (by rw [rest.loop]; rfl) rest.quiet h
  exact ⟨same, idle.2.symm.trans same⟩

/-- A rejected post, and a post of the other handler made while the clock is being read. -/
theorem every_post_answered_after_rejection :
    ∃ w', Run World.step SerialUse Sample.world
        ([Sample.secret, Sample.postByte 1] ++ Sample.completes 0 Sample.rejected ++
          [Sample.postObject 1]) w' ∧
      (∀ fs v, Run World.step Silent w' fs v → fs.length ≤ w'.budget ∧
        (Stuck World.step Silent v → v.AtRest ∧
          ∀ h, posts h v.trace = posts h w'.trace ∧ outcomes h v.trace = posts h w'.trace)) ∧
      ∃ fs v, Run World.step Silent w' fs v ∧ Stuck World.step Silent v :=
  exists_run (by decide) fun _ run => every_post_answered Sample.world_initial run

end World

end RestApiOut
