import RestApiOut.Action

/-!
# The invariant of every run

`World.Inv` holds in a world just constructed and is kept by every action.  The proof goes effect by
effect; only the two slots pass through a state in which it fails (a retired reply that is still
somebody's `pendingReply`), so they are treated as a whole.
-/

namespace RestApiOut

open Transition

variable {P : Platform} {ι : Type}

theorem Control.locked_of_rest {c : Control ι} (unlocked : c.locked = false) : c.rest = [] := by
  cases c with
  | loop | response | signal => rfl
  | updating | failing | failed | deadlock => cases unlocked

namespace World

variable {w w' : World P ι} {h : ι} {q r : ReplyId}

theorem Initial.inv (init : w.Initial) : w.Inv where
  mutex := by rw [init.mutex, init.control]; rfl
  waiting _ := init.waiting
  notifying locked := by rw [init.control] at locked; cases locked
  rest := by rw [init.control]; exact List.nil_suffix
  asked r live := by rw [init.network] at live; exact absurd live (Finset.notMem_empty r)
  outstanding r pending := by rw [init.pending] at pending; cases pending
  held h r pending := by rw [init.handlerPending h] at pending; cases pending
  owner h r live := by rw [init.network] at live; exact absurd live (Finset.notMem_empty r)

/-- A step that changes none of what the invariant reads keeps it. -/
theorem Inv.of_frame (inv : w.Inv)
    (mutex : w'.server.requestMutex = w.server.requestMutex)
    (pending : w'.server.pendingReply = w.server.pendingReply)
    (waiting : w'.server.waitingRestApis = w.server.waitingRestApis)
    (live : w'.network.live = w.network.live)
    (receiver : ∀ r, w'.network.receiver r = w.network.receiver r)
    (discarded : ∀ r, w'.network.discarded r = w.network.discarded r)
    (locked : w'.control.locked = w.control.locked) (rest : w'.control.rest <:+ w.control.rest)
    (handler : ∀ h, (w'.handler h).pendingReply = (w.handler h).pendingReply) : w'.Inv where
  mutex := by rw [mutex, locked, inv.mutex]
  waiting idle := by
    rw [pending] at idle
    rw [waiting]
    exact inv.waiting idle
  notifying held := by
    rw [locked] at held
    rw [pending]
    exact inv.notifying held
  rest := by
    rw [waiting]
    exact rest.trans inv.rest
  asked r member slot := by
    rw [live] at member
    rw [receiver] at slot
    rw [pending, locked]
    exact inv.asked r member slot
  outstanding r awaited unlocked := by
    rw [pending] at awaited
    rw [locked] at unlocked
    rw [live, receiver, discarded]
    exact inv.outstanding r awaited unlocked
  held h r own := by
    rw [handler] at own
    rw [live, receiver, discarded]
    exact inv.held h r own
  owner h r member slot kept := by
    rw [live] at member
    rw [receiver] at slot
    rw [discarded] at kept
    rw [handler]
    exact inv.owner h r member slot kept

theorem Inv.arrive (inv : w.Inv) (r : ReplyId) (result : ReplyResult) :
    ({ w with network := w.network.arrive r result } : World P ι).Inv :=
  inv.of_frame rfl rfl rfl rfl (fun _ => Network.receiver_arrive result)
    (fun _ => Network.discarded_arrive result) rfl (List.suffix_refl _) (fun _ => rfl)

theorem Inv.note (inv : w.Inv) (o : Observation P ι) : (w.note o).Inv :=
  inv.of_frame rfl rfl rfl rfl (fun _ => rfl) (fun _ => rfl) rfl (List.suffix_refl _) (fun _ => rfl)

/-- A reply that reaches another slot is not the handler's. -/
theorem Inv.not_pending (inv : w.Inv) {slot : Receiver ι}
    (receiver : w.network.receiver r = some slot) (other : slot ≠ .handler h) :
    (w.handler h).pendingReply ≠ some r := fun own =>
  other (Option.some.inj (receiver.symm.trans (inv.held h r own).2.1))

/-- A live reply is not the one the network hands out next. -/
theorem live_ne_next (live : r ∈ w.network.live) : r ≠ w.network.next := fun new =>
  Network.next_notMem_live (new ▸ live)

/-- `waitingRestApis.append` while an update runs. -/
theorem Inv.append (inv : w.Inv) (h : ι) (free : w.control.locked = false)
    (pending : w.server.pendingReply ≠ none) : (w.append h).Inv where
  mutex := inv.mutex
  waiting idle := absurd idle pending
  notifying := inv.notifying
  rest := by
    rw [show (w.append h).control = w.control from rfl, Control.locked_of_rest free]
    exact List.nil_suffix
  asked := inv.asked
  outstanding := inv.outstanding
  held := inv.held
  owner := inv.owner

/-- A new time-delta request, when the server waits for none. -/
theorem Inv.ask (inv : w.Inv) (free : w.control.locked = false)
    (idle : ∀ r ∈ w.network.live, w.network.receiver r ≠ some .server) (n : Nat) :
    (w.ask n).Inv where
  mutex := inv.mutex
  waiting busy := by cases busy
  notifying _ := nofun
  rest := inv.rest
  asked r live slot := by
    have receiver : (if r = w.network.next then some .server else w.network.receiver r) =
        some .server := by rw [← Network.receiver_post]; exact slot
    split at receiver
    · rename_i new
      exact ⟨congrArg some new.symm, free⟩
    · rename_i old
      exact absurd receiver (idle r ((Finset.mem_insert.mp live).resolve_left old))
  outstanding r awaited _ := by
    cases awaited
    refine ⟨Finset.mem_insert_self _ _, ?_, ?_⟩
    · exact (Network.receiver_post _).trans (if_pos rfl)
    · exact (Network.discarded_post _).trans (if_pos rfl)
  held k r own := by
    obtain ⟨live, slot, kept⟩ := inv.held k r own
    have old := live_ne_next live
    refine ⟨Finset.mem_insert_of_mem live, ?_, ?_⟩
    · exact (Network.receiver_post _).trans ((if_neg old).trans slot)
    · exact (Network.discarded_post _).trans ((if_neg old).trans kept)
  owner k r live slot kept := by
    have receiver : (if r = w.network.next then some .server else w.network.receiver r) =
        some (.handler k) := by rw [← Network.receiver_post]; exact slot
    split at receiver
    · cases receiver
    · rename_i old
      have kept' : (w.network.post .server).discarded r = false := kept
      rw [Network.discarded_post, if_neg old] at kept'
      exact inv.owner k r ((Finset.mem_insert.mp live).resolve_left old) receiver kept'

/-- The network once the server's slot has read its reply `r` and called `deleteLater` on it. -/
def readNetwork (w : World P ι) (r : ReplyId) : Network ι := (w.network.retire r).deleteLater r

/-- Reading a time-delta reply leaves the handlers' replies alone. -/
theorem Inv.held_read (inv : w.Inv) (finishing : w.Finishing r .server)
    (own : (w.handler h).pendingReply = some q) :
    q ∈ (w.readNetwork r).live ∧ (w.readNetwork r).receiver q = some (.handler h) ∧
      (w.readNetwork r).discarded q = false := by
  obtain ⟨live, slot, kept⟩ := inv.held h q own
  have other : q ≠ r := fun same => by
    rw [same, finishing.receiver] at slot
    cases slot
  simp [readNetwork, live, slot, kept, other, Network.discarded_deleteLater]

theorem Inv.owner_read (inv : w.Inv) (live : q ∈ (w.readNetwork r).live)
    (slot : (w.readNetwork r).receiver q = some (.handler h))
    (kept : (w.readNetwork r).discarded q = false) : (w.handler h).pendingReply = some q := by
  simp only [readNetwork, Network.live_deleteLater, Network.live_retire, Finset.mem_erase,
    Network.receiver_deleteLater, Network.receiver_retire, Network.discarded_deleteLater,
    Network.discarded_retire, Bool.or_eq_false_iff] at live slot kept
  exact inv.owner h q live.2 slot kept.1

/-- Once it has read its reply, the server waits for no other. -/
theorem Inv.quiet_read (inv : w.Inv) (finishing : w.Finishing r .server) :
    ∀ q ∈ (w.readNetwork r).live, (w.readNetwork r).receiver q ≠ some .server := by
  intro q live slot
  simp only [readNetwork, Network.live_deleteLater, Network.live_retire, Finset.mem_erase,
    Network.receiver_deleteLater, Network.receiver_retire] at live slot
  have awaited := (inv.asked q live.2 slot).1
  rw [(inv.asked r finishing.live finishing.receiver).1] at awaited
  exact live.1 (Option.some.inj awaited).symm

/-- The end of a notification loop: nobody waits and no update runs. -/
theorem Inv.release (inv : w.Inv) (locked : w.control.locked = true) (u : Bool) :
    ({ w.withCore (w.toCore.release u) with control := .signal } : World P ι).Inv where
  mutex := rfl
  waiting _ := rfl
  notifying held := by cases held
  rest := List.nil_suffix
  asked r live slot := by
    have unlocked := (inv.asked r live slot).2
    rw [locked] at unlocked
    cases unlocked
  outstanding r awaited := by cases awaited
  held := inv.held
  owner := inv.owner

/-- `Server::responseReceived` asks again. -/
theorem Inv.serverRetry (inv : w.Inv) (finishing : w.Finishing r .server) (n : Nat) :
    (((w.enterServer r).discard r).ask n).Inv where
  mutex := inv.mutex
  waiting busy := by cases busy
  notifying _ := nofun
  rest := inv.rest
  asked q live slot := by
    change q ∈ insert w.network.next (w.readNetwork r).live at live
    change ((w.readNetwork r).post .server).receiver q = some .server at slot
    rw [Network.receiver_post] at slot
    split at slot
    · rename_i new
      refine ⟨congrArg some new.symm, ?_⟩
      simp [finishing.loop, Control.locked]
    · rename_i old
      exact absurd slot (inv.quiet_read finishing q ((Finset.mem_insert.mp live).resolve_left old))
  outstanding q awaited _ := by
    cases awaited
    simp
  held h q own := by
    obtain ⟨live, slot, kept⟩ := inv.held_read finishing own
    have old : q ≠ (w.readNetwork r).next := fun new =>
      Network.next_notMem_live (new ▸ live)
    change q ∈ insert w.network.next (w.readNetwork r).live ∧
      ((w.readNetwork r).post .server).receiver q = some (.handler h) ∧
      ((w.readNetwork r).post .server).discarded q = false
    rw [Network.receiver_post, Network.discarded_post, if_neg old, if_neg old]
    exact ⟨Finset.mem_insert_of_mem live, slot, kept⟩
  owner h q live slot kept := by
    change q ∈ insert w.network.next (w.readNetwork r).live at live
    change ((w.readNetwork r).post .server).receiver q = some (.handler h) at slot
    change ((w.readNetwork r).post .server).discarded q = false at kept
    rw [Network.receiver_post] at slot
    rw [Network.discarded_post] at kept
    split at slot
    · cases slot
    · rename_i old
      rw [if_neg old] at kept
      exact inv.owner_read ((Finset.mem_insert.mp live).resolve_left old) slot kept

/-- `Server::responseReceived` enters one of its loops: `w'` is the world it enters it from. -/
theorem Inv.startLoop (inv : w.Inv) (finishing : w.Finishing r .server) (w' : World P ι)
    (network : w'.network = w.readNetwork r)
    (pending : w'.server.pendingReply = w.server.pendingReply)
    (handler : w'.handler = w.handler) (u : Bool) : (w'.startLoop u).Inv where
  mutex := by simp
  waiting idle := by
    rw [server_startLoop, pending, (inv.asked r finishing.live finishing.receiver).1] at idle
    cases idle
  notifying _ := by
    rw [server_startLoop, pending, (inv.asked r finishing.live finishing.receiver).1]
    nofun
  rest := by cases u <;> exact List.suffix_refl _
  asked q live slot := by
    rw [network_startLoop, network] at live slot
    exact absurd slot (inv.quiet_read finishing q live)
  outstanding q _ unlocked := by
    rw [locked_startLoop] at unlocked
    cases unlocked
  held h q own := by
    rw [handler_startLoop, handler] at own
    rw [network_startLoop, network]
    exact inv.held_read finishing own
  owner h q live slot kept := by
    rw [network_startLoop, network] at live slot kept
    rw [handler_startLoop, handler]
    exact inv.owner_read live slot kept

/-- `Server::updateTimeDelta` on a free mutex. -/
theorem Inv.enlist (inv : w.Inv) (h : ι) (free : w.control.locked = false) : (w.enlist h).Inv := by
  cases pending : w.server.pendingReply with
  | some r =>
      rw [enlist_of_pending pending]
      exact inv.append h free (Option.ne_none_iff_exists'.mpr ⟨_, pending⟩)
  | none =>
      have quiet : ∀ r ∈ w.network.live, w.network.receiver r ≠ some .server := by
        intro r live slot
        have awaited := (inv.asked r live slot).1
        rw [pending] at awaited
        cases awaited
      rw [enlist_of_idle pending]
      exact (inv.ask free quiet numberRetries).append h free nofun

/-- A finished reply that is nobody's `pendingReply` can be forgotten. -/
theorem Inv.retire (inv : w.Inv) (gone : w.network.discarded r = true) :
    ({ w with network := w.network.retire r } : World P ι).Inv where
  mutex := inv.mutex
  waiting := inv.waiting
  notifying := inv.notifying
  rest := inv.rest
  asked q live slot := inv.asked q (Finset.mem_of_mem_erase live) slot
  outstanding q awaited unlocked := by
    obtain ⟨live, slot, kept⟩ := inv.outstanding q awaited unlocked
    have other : q ≠ r := fun same => by
      rw [same, gone] at kept
      cases kept
    exact ⟨Finset.mem_erase.mpr ⟨other, live⟩, slot, kept⟩
  held h q own := by
    obtain ⟨live, slot, kept⟩ := inv.held h q own
    have other : q ≠ r := fun same => by
      rw [same, gone] at kept
      cases kept
    exact ⟨Finset.mem_erase.mpr ⟨other, live⟩, slot, kept⟩
  owner h q live := inv.owner h q (Finset.mem_of_mem_erase live)

/-- A finished reply the handler does not hold has been discarded. -/
theorem Inv.discarded_of_ne (inv : w.Inv) (finishing : w.Finishing r (.handler h))
    (other : (w.handler h).pendingReply ≠ some r) : w.network.discarded r = true := by
  cases kept : w.network.discarded r with
  | true => rfl
  | false => exact absurd (inv.owner h r finishing.live finishing.receiver kept) other

variable [DecidableEq ι]

/-- `timestampUpdated`: the old reply is discarded, the new one takes its place. -/
theorem Inv.timestampUpdated (inv : w.Inv) (h : ι) : (w.timestampUpdated h).Inv where
  mutex := by simpa using inv.mutex
  waiting := by simpa using inv.waiting
  notifying := by simpa using inv.notifying
  rest := by simpa using inv.rest
  asked r live slot := by
    simp only [network_timestampUpdated, Network.live_post, live_discardPending,
      next_discardPending, Finset.mem_insert, Network.receiver_post,
      receiver_discardPending] at live slot
    rw [server_timestampUpdated, control_timestampUpdated]
    split at slot
    · cases slot
    · rename_i old
      exact inv.asked r (live.resolve_left old) slot
  outstanding r awaited unlocked := by
    rw [server_timestampUpdated] at awaited
    rw [control_timestampUpdated] at unlocked
    obtain ⟨live, slot, kept⟩ := inv.outstanding r awaited unlocked
    have old := live_ne_next live
    have mine := inv.not_pending (h := h) slot nofun
    simp [live, slot, kept, old, discarded_discardPending, mine]
  held k r own := by
    rw [pendingReply_timestampUpdated] at own
    split at own
    · rename_i same
      cases own
      simp [same]
    · rename_i other
      obtain ⟨live, slot, kept⟩ := inv.held k r own
      have old := live_ne_next live
      have mine := inv.not_pending slot fun same => other (Receiver.handler.inj same)
      simp [live, slot, kept, old, discarded_discardPending, mine]
  owner k r live slot kept := by
    simp only [network_timestampUpdated, Network.live_post, live_discardPending,
      next_discardPending, Finset.mem_insert, Network.receiver_post, receiver_discardPending,
      Network.discarded_post, discarded_discardPending] at live slot kept
    rw [pendingReply_timestampUpdated]
    split at slot
    · rename_i new
      cases slot
      rw [if_pos rfl, new]
    · rename_i old
      rw [if_neg old, Bool.or_eq_false_iff, decide_eq_false_iff_not] at kept
      have live' := live.resolve_left old
      have own := inv.owner k r live' slot kept.1
      have other : k ≠ h := fun same =>
        kept.2 ⟨same ▸ own, w.network.live_lt r live'⟩
      rw [if_neg other]
      exact own

/-- `timestampUpdateFailed`: the old reply is discarded and nothing takes its place. -/
theorem Inv.timestampUpdateFailed (inv : w.Inv) (h : ι) : (w.timestampUpdateFailed h).Inv where
  mutex := inv.mutex
  waiting := inv.waiting
  notifying := inv.notifying
  rest := inv.rest
  asked r live slot := by
    simp only [network_timestampUpdateFailed, live_discardPending,
      receiver_discardPending] at live slot
    exact inv.asked r live slot
  outstanding r awaited unlocked := by
    obtain ⟨live, slot, kept⟩ := inv.outstanding r awaited unlocked
    have mine := inv.not_pending (h := h) slot nofun
    simp [live, slot, kept, discarded_discardPending, mine]
  held k r own := by
    rw [pendingReply_timestampUpdateFailed] at own
    split at own
    · cases own
    · rename_i other
      obtain ⟨live, slot, kept⟩ := inv.held k r own
      have mine := inv.not_pending slot fun same => other (Receiver.handler.inj same)
      simp [live, slot, kept, discarded_discardPending, mine]
  owner k r live slot kept := by
    simp only [network_timestampUpdateFailed, live_discardPending, receiver_discardPending,
      discarded_discardPending, Bool.or_eq_false_iff, decide_eq_false_iff_not] at live slot kept
    have own := inv.owner k r live slot kept.1
    have other : k ≠ h := fun same => kept.2 ⟨same ▸ own, w.network.live_lt r live⟩
    rw [pendingReply_timestampUpdateFailed, if_neg other]
    exact own

/-- A handler's slot that reads its `pendingReply` and forgets it. -/
theorem Inv.closeSlot (inv : w.Inv) (finishing : w.Finishing r (.handler h))
    (pending : (w.handler h).pendingReply = some q) :
    ((w.enterSlot h r).takePending h q).Inv where
  mutex := inv.mutex
  waiting := inv.waiting
  notifying := inv.notifying
  rest := inv.rest
  asked r' live slot := by
    have slot' : w.network.receiver r' = some .server := by
      rw [← Network.receiver_retire (n := w.network) (q := r), ← Network.receiver_deleteLater]
      exact slot
    exact inv.asked r' (Finset.mem_of_mem_erase live) slot'
  outstanding r' awaited free := by
    obtain ⟨live, slot, kept⟩ := inv.outstanding r' awaited free
    have otherSlot : r' ≠ r := fun same => by
      rw [same, finishing.receiver] at slot
      cases slot
    have otherPending : r' ≠ q := fun same =>
      inv.not_pending (h := h) slot nofun (same ▸ pending)
    refine ⟨Finset.mem_erase.mpr ⟨otherSlot, live⟩, ?_, ?_⟩
    · exact Network.receiver_deleteLater.trans slot
    · simp [Network.discarded_deleteLater, kept, otherPending]
  held k r' own := by
    rw [pendingReply_takePending] at own
    split at own
    · cases own
    · rename_i other
      obtain ⟨live, slot, kept⟩ := inv.held k r' own
      have otherSlot : r' ≠ r := fun same => by
        rw [same, finishing.receiver] at slot
        exact other (Receiver.handler.inj (Option.some.inj slot)).symm
      have otherPending : r' ≠ q := fun same =>
        inv.not_pending slot (fun h' => other (Receiver.handler.inj h')) (same ▸ pending)
      refine ⟨Finset.mem_erase.mpr ⟨otherSlot, live⟩, ?_, ?_⟩
      · exact Network.receiver_deleteLater.trans slot
      · simp [Network.discarded_deleteLater, kept, otherPending]
  owner k r' live slot kept := by
    have slot' : w.network.receiver r' = some (.handler k) :=
      Network.receiver_deleteLater.symm.trans slot
    have kept' : (w.network.discarded r' || decide (r' = q ∧ q < w.network.next)) = false :=
      Network.discarded_deleteLater.symm.trans kept
    rw [Bool.or_eq_false_iff, decide_eq_false_iff_not] at kept'
    have live' : r' ∈ w.network.live := Finset.mem_of_mem_erase live
    have own := inv.owner k r' live' slot' kept'.1
    have other : k ≠ h := by
      rintro rfl
      rw [pending] at own
      cases own
      exact kept'.2 ⟨rfl, w.network.live_lt _ live'⟩
    rw [pendingReply_takePending, if_neg other]
    exact own

theorem Inv.beginPost (inv : w.Inv) {endpoint : String} {content : Content P} :
    (w.beginPost h endpoint content).Inv :=
  inv.of_frame rfl rfl rfl rfl (fun _ => rfl) (fun _ => rfl) rfl (List.suffix_refl _)
    (fun k => pendingReply_beginPost w h k endpoint content)

/-- **Every action keeps the invariant.** -/
theorem Inv.action {e : Event P ι} (inv : w.Inv) (action : Action w e w') : w'.Inv := by
  cases action with
  | @postNow h endpoint content user free idle =>
      exact inv.beginPost.timestampUpdated h
  | @postDeferred h endpoint content r user free pending =>
      apply inv.beginPost.append h free
      rw [server_beginPost, pending]
      nofun
  | @postBlocked h k endpoint content rest inLoop =>
      refine inv.of_frame rfl rfl rfl rfl (fun _ => rfl) (fun _ => rfl) ?_ List.nil_suffix
        (fun j => pendingReply_beginPost w h j endpoint content)
      rw [inLoop]
      rfl
  | @setSecret h secret long =>
      exact inv.of_frame rfl rfl rfl rfl (fun _ => rfl) (fun _ => rfl) rfl (List.suffix_refl _)
        (fun k => pendingReply_setSecret w h k secret)
  | setDefaultSecret long =>
      exact inv.of_frame rfl rfl rfl rfl (fun _ => rfl) (fun _ => rfl) rfl (List.suffix_refl _)
        (fun _ => rfl)
  | configure plain noPost =>
      exact inv.of_frame plain.mutex plain.pending plain.waiting rfl (fun _ => rfl) (fun _ => rfl)
        rfl (List.suffix_refl _) (fun _ => rfl)
  | returned callback =>
      have unlocked : w.control.locked = false := by
        rcases callback with ⟨h, control⟩ | control <;> rw [control] <;> rfl
      exact inv.of_frame rfl rfl rfl rfl (fun _ => rfl) (fun _ => rfl) unlocked.symm List.nil_suffix
        (fun _ => rfl)
  | resumed callback =>
      refine inv.of_frame rfl rfl rfl rfl (fun _ => rfl) (fun _ => rfl) ?_ ?_ (fun _ => rfl)
      · rw [callback]
        rfl
      · rw [callback]
        exact List.suffix_refl _
  | @notifyUpdated h rest inLoop =>
      refine ((inv.note (.notified h true)).timestampUpdated h).of_frame rfl rfl rfl rfl
        (fun _ => rfl) (fun _ => rfl) ?_ ?_ (fun _ => rfl)
      · rw [control_timestampUpdated, show (w.note (.notified h true)).control = _ from inLoop]
        rfl
      · rw [control_timestampUpdated, show (w.note (.notified h true)).control = _ from inLoop]
        exact List.suffix_cons h rest
  | @notifyFailed h rest inLoop =>
      refine ((inv.note (.notified h false)).timestampUpdateFailed h).of_frame rfl rfl rfl rfl
        (fun _ => rfl) (fun _ => rfl) ?_ ?_ (fun _ => rfl)
      · rw [show ((w.note (.notified h false)).timestampUpdateFailed h).control = _ from inLoop]
        rfl
      · rw [show ((w.note (.notified h false)).timestampUpdateFailed h).control = _ from inLoop]
        exact List.suffix_cons h rest
  | endUpdated inLoop => exact inv.release (by rw [inLoop]; rfl) true
  | endFailed inLoop => exact inv.release (by rw [inLoop]; rfl) false
  | arrived live first => exact inv.arrive _ _
  | destroyed loop live discarded => exact inv.retire discarded
  | @slotNull h r finishing null =>
      have gone := inv.discarded_of_ne finishing (by simp [null])
      exact (inv.retire gone).of_frame rfl rfl rfl rfl (fun _ => rfl) (fun _ => rfl) rfl
        (List.suffix_refl _) (fun _ => rfl)
  | slotOutcome finishing pending final =>
      refine (inv.closeSlot finishing pending).of_frame rfl rfl rfl rfl (fun _ => rfl)
        (fun _ => rfl) ?_ List.nil_suffix (fun _ => rfl)
      rw [control_takePending, control_enterSlot, finishing.loop]
      rfl
  | @slotRetry h r q finishing pending rejected =>
      have spent : (((w.enterSlot h r).takePending h q).spendRetry h q).Inv :=
        (inv.closeSlot finishing pending).of_frame rfl rfl rfl rfl (fun _ => rfl) (fun _ => rfl) rfl
          (List.suffix_refl _) (fun k => pendingReply_spendRetry _ h k q)
      apply spent.enlist h
      rw [control_spendRetry, control_takePending, control_enterSlot, finishing.loop]
      rfl
  | serverRetry finishing refused left => exact inv.serverRetry finishing _
  | @serverFailed r finishing refused left =>
      exact inv.startLoop finishing ((w.enterServer r).discard r) rfl rfl rfl false
  | @serverUpdated r delta finishing accepted =>
      exact inv.startLoop finishing ((w.enterServer r).accept r delta) rfl rfl rfl true

theorem Inv.step {e : Event P ι} (inv : w.Inv) (stepped : w.step e = some w') : w'.Inv :=
  inv.action (step_action inv stepped)

/-- The invariant holds in every reachable world. -/
theorem Initial.reachable {guard : World P ι → Event P ι → Prop} {es : List (Event P ι)}
    (init : w.Initial) (run : Run World.step guard w es w') : w'.Inv :=
  run.invariant (fun inv _ stepped => Inv.step inv stepped) init.inv

end World

end RestApiOut
