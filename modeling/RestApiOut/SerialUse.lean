import RestApiOut.Account
import RestApiOut.Reentrancy
import RestApiOut.FinishedReply

/-!
# Serial use

An application that posts on a handler only after the handler's previous post has had its outcome,
and not from a callback of the failure loop, never meets the program's races.  `serial_use` says
what it gets: between events every handler is idle, or waits for the one reply it has on the wire,
or waits once for the clock; no message supersedes a reply, every slot reads the reply that
finished, and every post has exactly one outcome.

The invariant `Serial` is the balance of every account together with the fact that no live reply
has been discarded; the balance is what keeps `timestampUpdated` from ever finding a reply to
discard.
-/

namespace RestApiOut

open Transition History

variable {P : Platform} {ι : Type} [DecidableEq ι]

/-- A `post` is made when every earlier post on its handler has had its outcome, and with the mutex
free. -/
def SerialUse (w : World P ι) : Event P ι → Prop
  | .call (.post h _ _) =>
      posts h w.trace = outcomes h w.trace ∧ w.control.inFailure = false
  | _ => True

instance (w : World P ι) : ∀ e, Decidable (SerialUse w e)
  | .call (.post _ _ _) => inferInstanceAs (Decidable (_ ∧ _))
  | .call (.setSecret _ _) | .call (.setDefaultSecret _) | .call (.setSchemeAndHost _)
  | .call (.setUserAgent _) | .call (.setTimeDeltaSlug _) | .call (.setTimeDelta _)
  | .ret | .next | .arrive _ _ | .finish _ | .destroyReply _ => isTrue trivial

/-- No message supersedes a reply, and every slot reads the reply that finished. -/
def Undisturbed : Observation P ι → Trace P ι → Prop
  | .sent _ superseded _ _, _ => superseded = none
  | .slot _ trigger pending, _ => pending = some trigger
  | _, _ => True

inductive Phase
  | idle
  | awaitingReply
  | awaitingClock
deriving DecidableEq

namespace World

/-- What each phase of a handler means for its reply and for the server's list. -/
def InPhase (w : World P ι) (h : ι) : Phase → Prop
  | .idle => (w.handler h).pendingReply = none ∧ h ∉ w.server.waitingRestApis
  | .awaitingReply =>
      (∃ r, (w.handler h).pendingReply = some r ∧
        ∀ q, (q ∈ w.network.live ∧ w.network.receiver q = some (.handler h)) ↔ q = r) ∧
      h ∉ w.server.waitingRestApis
  | .awaitingClock =>
      (w.handler h).pendingReply = none ∧ w.server.waitingRestApis.count h = 1

structure Serial (w : World P ι) : Prop where
  running : w.control ≠ .deadlock
  balanced : ∀ h, (w.account h).Balanced
  kept : ∀ r ∈ w.network.live, w.network.discarded r = false
  undisturbed : Always Undisturbed w.trace

variable {w w' : World P ι} {h : ι} {q r : ReplyId}

theorem Initial.serial (init : w.Initial) : w.Serial where
  running := by simp [init.control]
  balanced := init.account
  kept r live := by rw [init.network] at live; exact absurd live (Finset.notMem_empty r)
  undisturbed := by rw [init.trace]; trivial

/-- A handler that the server owes a callback holds no reply. -/
theorem Serial.no_reply_of_awaiting (serial : w.Serial) (waits : h ∈ w.awaiting) :
    (w.handler h).pendingReply = none := by
  have single := (serial.balanced h).single
  have counted : 0 < w.awaiting.count h := List.count_pos_iff.mpr waits
  simp only [Account.due, account] at single
  split at single
  · assumption
  · omega

/-- A handler that may be posted on holds no reply. -/
theorem Serial.no_reply_of_closed (serial : w.Serial)
    (closed : posts h w.trace = outcomes h w.trace) : (w.handler h).pendingReply = none := by
  have balance := (serial.balanced h).posts
  simp only [Account.due, account] at balance
  split at balance
  · assumption
  · omega

/-- The reply a handler holds when its slot runs is the one that finished. -/
theorem Serial.own_finished (serial : w.Serial) (inv : w.Inv)
    (finishing : w.Finishing r (.handler h)) : (w.handler h).pendingReply = some r :=
  (inv.pending_iff_kept finishing).mpr (serial.kept r finishing.live)

omit [DecidableEq ι] in
/-- Reading a finished reply discards no other. -/
theorem kept_read (kept : ∀ r ∈ w.network.live, w.network.discarded r = false)
    (live : q ∈ (w.readNetwork r).live) : (w.readNetwork r).discarded q = false := by
  simp only [readNetwork, Network.live_deleteLater, Network.live_retire, Finset.mem_erase] at live
  simp [readNetwork, Network.discarded_deleteLater, kept q live.2, live.1]

omit [DecidableEq ι] in
theorem kept_post {n : Network ι} {slot : Receiver ι}
    (kept : ∀ r ∈ n.live, n.discarded r = false) (live : q ∈ (n.post slot).live) :
    (n.post slot).discarded q = false := by
  rw [Network.discarded_post]
  split
  · rfl
  · rename_i old
    exact kept q ((Finset.mem_insert.mp live).resolve_left old)

/-- A message sent by a handler that holds no reply discards nothing. -/
theorem kept_timestampUpdated (kept : ∀ r ∈ w.network.live, w.network.discarded r = false)
    (none : (w.handler h).pendingReply = none) (live : q ∈ (w.timestampUpdated h).network.live) :
    (w.timestampUpdated h).network.discarded q = false := by
  rw [network_timestampUpdated, discardPending, none] at live ⊢
  exact kept_post kept live

omit [DecidableEq ι] in
theorem kept_enlist (kept : ∀ r ∈ w.network.live, w.network.discarded r = false)
    (live : q ∈ (w.enlist h).network.live) : (w.enlist h).network.discarded q = false := by
  cases pending : w.server.pendingReply with
  | some t =>
      rw [enlist_of_pending pending] at live ⊢
      exact kept q live
  | none =>
      rw [enlist_of_idle pending] at live ⊢
      exact kept_post kept live

/-- No live reply is ever discarded. -/
theorem Serial.kept_action {e : Event P ι} (serial : w.Serial) (inv : w.Inv)
    (guarded : SerialUse w e) (action : Action w e w') :
    ∀ r ∈ w'.network.live, w'.network.discarded r = false := by
  have kept := serial.kept
  intro q live
  cases action with
  | @postNow h endpoint content user free idle =>
      refine kept_timestampUpdated (w := w.beginPost h endpoint content) kept ?_ live
      rw [pendingReply_beginPost]
      exact serial.no_reply_of_closed guarded.1
  | @notifyUpdated h rest inLoop =>
      refine kept_timestampUpdated (w := w.note (.notified h true)) kept ?_ live
      apply serial.no_reply_of_awaiting (h := h)
      rw [awaiting_updating inLoop]
      exact List.mem_cons_self
  | @notifyFailed h rest inLoop =>
      have none : (w.handler h).pendingReply = none := by
        apply serial.no_reply_of_awaiting (h := h)
        rw [awaiting_failing inLoop]
        exact List.mem_cons_self
      have same : (w.note (.notified h false)).discardPending h = w.network := by
        rw [discardPending,
          show ((w.note (.notified h false)).handler h).pendingReply = _ from none]
        rfl
      simp only [network_timestampUpdateFailed, same] at live ⊢
      exact kept q live
  | slotNull finishing null =>
      rw [serial.own_finished inv finishing] at null
      cases null
  | slotOutcome finishing pending final =>
      rw [serial.own_finished inv finishing] at pending
      cases pending
      exact kept_read kept live
  | @slotRetry h r q' finishing pending rejected =>
      rw [serial.own_finished inv finishing] at pending
      cases pending
      refine kept_enlist (w := ((w.enterSlot h r).takePending h r).spendRetry h r) ?_ live
      intro r' member
      exact kept_read kept member
  | serverRetry finishing => exact kept_post (fun r' member => kept_read kept member) live
  | serverFailed finishing | serverUpdated finishing => exact kept_read kept live
  | destroyed loop live' discarded => exact kept q (Finset.mem_of_mem_erase live)
  | arrived live' first =>
      rw [Network.discarded_arrive]
      exact kept q live
  | postDeferred | postBlocked | setSecret | setDefaultSecret | configure | returned | resumed
  | endUpdated | endFailed => exact kept q live

/-- No message supersedes a reply and every slot reads its own. -/
theorem Serial.undisturbed_action {e : Event P ι} (serial : w.Serial) (inv : w.Inv)
    (guarded : SerialUse w e) (action : Action w e w') : Always Undisturbed w'.trace := by
  have before := serial.undisturbed
  cases action with
  | @postNow h endpoint content user free idle =>
      have none := serial.no_reply_of_closed guarded.1
      simp [Undisturbed, none, before]
  | @notifyUpdated h rest inLoop =>
      have none : (w.handler h).pendingReply = none := by
        apply serial.no_reply_of_awaiting (h := h)
        rw [awaiting_updating inLoop]
        exact List.mem_cons_self
      simp [Undisturbed, note, none, before]
  | slotNull finishing null => exact ⟨serial.own_finished inv finishing, before⟩
  | slotOutcome finishing => exact ⟨trivial, serial.own_finished inv finishing, before⟩
  | slotRetry finishing =>
      rw [always_enlist (fun _ => trivial) (fun _ _ _ => trivial)]
      exact ⟨trivial, serial.own_finished inv finishing, before⟩
  | postDeferred | postBlocked | setSecret | setDefaultSecret | configure | returned | resumed
  | endUpdated | notifyFailed | endFailed | arrived | destroyed | serverRetry | serverFailed
  | serverUpdated => simp [Undisturbed, before]

theorem postsReleased_of_serialUse {e : Event P ι} (guarded : SerialUse w e) :
    PostsReleased w e := by
  cases e with
  | call c =>
      cases c with
      | post h endpoint content => exact guarded.2
      | setSecret | setDefaultSecret | setSchemeAndHost | setUserAgent | setTimeDeltaSlug
      | setTimeDelta => trivial
  | ret | next | arrive | finish | destroyReply => trivial

theorem Serial.step {e : Event P ι} (serial : w.Serial) (inv : w.Inv) (guarded : SerialUse w e)
    (stepped : w.step e = some w') : w'.Serial := by
  have action := step_action inv stepped
  have running := (relocked_step inv stepped).mpr
    ⟨serial.running, postsReleased_of_serialUse guarded⟩
  refine ⟨running, fun k => ?_, serial.kept_action inv guarded action,
    serial.undisturbed_action inv guarded action⟩
  apply (serial.balanced k).move (action.account inv running k)
  intro posted
  cases e with
  | call c =>
      cases c with
      | post h endpoint content =>
          have mine : h = k := of_decide_eq_true posted
          rw [← mine]
          exact guarded.1
      | setSecret | setDefaultSecret | setSchemeAndHost | setUserAgent | setTimeDeltaSlug
      | setTimeDelta => cases posted
  | ret | next | arrive | finish | destroyReply => cases posted

/-- The phases are told apart by the handler's reply and its entries in the list. -/
theorem phase_unique {p p' : Phase} (left : w.InPhase h p) (right : w.InPhase h p') : p = p' := by
  have waits : w.server.waitingRestApis.count h = 1 → h ∈ w.server.waitingRestApis := by
    intro one
    exact List.count_pos_iff.mp (one ▸ Nat.one_pos)
  cases p with
  | idle =>
      cases p' with
      | idle => rfl
      | awaitingReply =>
          obtain ⟨⟨r, own, -⟩, -⟩ := right
          cases left.1.symm.trans own
      | awaitingClock => exact absurd (waits right.2) left.2
  | awaitingReply =>
      cases p' with
      | awaitingReply => rfl
      | idle =>
          obtain ⟨⟨r, own, -⟩, -⟩ := left
          cases right.1.symm.trans own
      | awaitingClock => exact absurd (waits right.2) left.2
  | awaitingClock =>
      cases p' with
      | awaitingClock => rfl
      | idle => exact absurd (waits left.2) right.2
      | awaitingReply => exact absurd (waits left.2) right.2

/-- Between events a handler is idle and owed nothing, or in one of the other phases and owed one
outcome. -/
theorem Serial.phase (serial : w.Serial) (inv : w.Inv) (free : w.control.locked = false) (h : ι) :
    (w.InPhase h .idle ∧ posts h w.trace = outcomes h w.trace) ∨
      ((w.InPhase h .awaitingReply ∨ w.InPhase h .awaitingClock) ∧
        posts h w.trace = outcomes h w.trace + 1) := by
  have balance := (serial.balanced h).posts
  have single := (serial.balanced h).single
  simp only [Account.due, account, awaiting_of_free free] at balance single
  cases pending : (w.handler h).pendingReply with
  | none =>
      rw [if_pos pending] at balance single
      rcases Nat.le_one_iff_eq_zero_or_eq_one.mp (by omega :
        w.server.waitingRestApis.count h ≤ 1) with zero | one
      · exact .inl ⟨⟨pending, List.count_eq_zero.mp zero⟩, by omega⟩
      · exact .inr ⟨.inr ⟨pending, one⟩, by omega⟩
  | some r =>
      rw [if_neg (Option.ne_none_iff_exists'.mpr ⟨_, pending⟩)] at balance single
      have absent : h ∉ w.server.waitingRestApis := List.count_eq_zero.mp (by omega)
      refine .inr ⟨.inl ⟨⟨r, pending, fun q => ?_⟩, absent⟩, by omega⟩
      constructor
      · rintro ⟨live, slot⟩
        have own := inv.owner h q live slot (serial.kept q live)
        rw [pending] at own
        exact (Option.some.inj own).symm
      · rintro rfl
        obtain ⟨live, slot, -⟩ := inv.held h q pending
        exact ⟨live, slot⟩

/-- Once nothing is on the wire, every handler is idle. -/
theorem Serial.idle_of_quiet (serial : w.Serial) (inv : w.Inv) (free : w.control.locked = false)
    (quiet : w.network.live = ∅) (h : ι) :
    w.InPhase h .idle ∧ posts h w.trace = outcomes h w.trace := by
  rcases serial.phase inv free h with idle | ⟨busy, -⟩
  · exact idle
  · exfalso
    rcases busy with ⟨⟨r, own, -⟩, -⟩ | ⟨-, one⟩
    · have live := (inv.held h r own).1
      rw [quiet] at live
      exact absurd live (Finset.notMem_empty r)
    · cases pending : w.server.pendingReply with
      | none =>
          rw [inv.waiting pending] at one
          cases one
      | some r =>
          have live := (inv.outstanding r pending free).1
          rw [quiet] at live
          exact absurd live (Finset.notMem_empty r)

/-- **Serial use gives exactly one outcome per post**, and never blocks the thread. -/
theorem serial_use {es : List (Event P ι)} (init : w.Initial)
    (run : Run World.step SerialUse w es w') :
    Always Undisturbed w'.trace ∧ w'.control ≠ .deadlock ∧
      (w'.control.locked = false →
        (∀ h, ∃! phase, w'.InPhase h phase) ∧
        (∀ h, w'.InPhase h .idle → posts h w'.trace = outcomes h w'.trace) ∧
        (∀ h, ¬ w'.InPhase h .idle → posts h w'.trace = outcomes h w'.trace + 1) ∧
        (w'.network.live = ∅ → ∀ h, w'.InPhase h .idle)) := by
  have kept : w'.Inv ∧ w'.Serial :=
    run.invariant (I := fun w => w.Inv ∧ w.Serial)
      (fun both guarded stepped =>
        ⟨both.1.step stepped, both.2.step both.1 guarded stepped⟩) ⟨init.inv, init.serial⟩
  obtain ⟨inv, serial⟩ := kept
  refine ⟨serial.undisturbed, serial.running, fun free => ⟨fun h => ?_, fun h idle => ?_,
    fun h busy => ?_, fun quiet h => (serial.idle_of_quiet inv free quiet h).1⟩⟩
  · rcases serial.phase inv free h with ⟨idle, -⟩ | ⟨reply | clock, -⟩
    · exact ⟨.idle, idle, fun p other => phase_unique other idle⟩
    · exact ⟨.awaitingReply, reply, fun p other => phase_unique other reply⟩
    · exact ⟨.awaitingClock, clock, fun p other => phase_unique other clock⟩
  · rcases serial.phase inv free h with ⟨-, even⟩ | ⟨reply | clock, -⟩
    · exact even
    · cases phase_unique idle reply
    · cases phase_unique idle clock
  · rcases serial.phase inv free h with ⟨idle, -⟩ | ⟨-, odd⟩
    · exact absurd idle busy
    · exact odd

/-- A rejected post, a post of another handler made while the clock is being read, and both
outcomes. -/
theorem serial_use_through_retry :
    ∃ w', Run World.step SerialUse Sample.world
        ([Sample.secret, Sample.postByte 1] ++ Sample.completes 0 Sample.rejected ++
          [Sample.postObject 1] ++ Sample.completes 1 (Sample.answered 7) ++
          [.next, .next, .next, .ret] ++ Sample.completes 2 Sample.succeeded ++ [.ret] ++
          Sample.completes 3 Sample.refused) w' ∧
      Always Undisturbed w'.trace ∧ w'.control ≠ .deadlock ∧
      (w'.control.locked = false →
        (∀ h, ∃! phase, w'.InPhase h phase) ∧
        (∀ h, w'.InPhase h .idle → posts h w'.trace = outcomes h w'.trace) ∧
        (∀ h, ¬ w'.InPhase h .idle → posts h w'.trace = outcomes h w'.trace + 1) ∧
        (w'.network.live = ∅ → ∀ h, w'.InPhase h .idle)) :=
  exists_run (by decide) fun _ run => serial_use Sample.world_initial run

end World

end RestApiOut
