import RestApiOut.Ownership
import RestApiOut.Session

/-!
# Where reports come from

`Accounted` says of every observation of a run where it comes from: a slot is called by a reply to a
request of its own object; an outcome reports what was stored in the reply it was read from, as
`Reports` says by cases; a retry was provoked by an authentication failure; a time delta was parsed
from an answer to a time-delta request.  `reports_accounted` adds that no reply is ever read twice
and that nothing is stored that the network did not deliver, under any use.

One way to report something nobody sent is left, and named: the `finished` signal of a reply that
was given to `deleteLater` makes its handler read the reply it holds before that has finished.
-/

namespace RestApiOut

open Transition History

variable {P : Platform} {ι : Type}

/-- The reply an observation was read from. -/
def Observation.reads : Observation P ι → Option ReplyId
  | .outcome _ cause _ => cause
  | .retry _ cause => some cause
  | .answered _ pending => pending
  | .posted _ _ _ _ | .sent _ _ _ _ | .slot _ _ _ | .registered _ | .asked _ _ | .accepted _
  | .notifying _ | .notified _ _ | .released _ | .secretSet _ _ | .defaultSecretSet _ => none

/-- The replies that have been read, latest first. -/
def reads (t : Trace P ι) : List ReplyId := t.filterMap Observation.reads

@[simp] theorem reads_nil : reads ([] : Trace P ι) = [] := rfl

theorem reads_cons_none {o : Observation P ι} {t : Trace P ι} (nothing : o.reads = none) :
    reads (o :: t) = reads t :=
  List.filterMap_cons_none nothing

theorem reads_cons_some {o : Observation P ι} {t : Trace P ι} {r : ReplyId}
    (read : o.reads = some r) : reads (o :: t) = r :: reads t :=
  List.filterMap_cons_some read

/-- `r` is the reply to a request the object made. -/
def Receiver.Requested (r : ReplyId) (t : Trace P ι) : Receiver ι → Prop
  | .server => ∃ request, .asked r request ∈ t
  | .handler h => ∃ superseded m, .sent h superseded r m ∈ t

theorem Receiver.Requested.append {r : ReplyId} {t : Trace P ι} {slot : Receiver ι}
    (requested : slot.Requested r t) (new : Trace P ι) : slot.Requested r (new ++ t) := by
  cases slot with
  | server =>
      obtain ⟨request, member⟩ := requested
      exact ⟨request, List.mem_append_right new member⟩
  | handler h =>
      obtain ⟨superseded, m, member⟩ := requested
      exact ⟨superseded, m, List.mem_append_right new member⟩

/-- The finish of `trigger` has just called the slot of `h`, which found `q`: a reply to a message
of its own that nobody has read before. -/
def Reading (h : ι) (trigger q : ReplyId) (past : Trace P ι) : Prop :=
  ∃ older, past = .slot h trigger (some q) :: older ∧
    Receiver.Requested q older (.handler h) ∧ q ∉ reads older

namespace World

variable {w w' : World P ι} {h k : ι} {q r : ReplyId} {slot : Receiver ι}

/-- Where an observation made after `past` comes from, by what is stored in the replies of `w`. -/
def Accounted (w : World P ι) : Observation P ι → Trace P ι → Prop
  | .slot h trigger _, past => Receiver.Requested trigger past (.handler h)
  | .outcome h (some q) o, past => ∃ trigger result, Reading h trigger q past ∧
      Reports P (w.handler h).kind result o ∧
      ((w.network.reply q).result = some result ∨
        trigger ≠ q ∧ w.network.discarded trigger = true ∧ result = .unfinished)
  | .outcome h none o, past => o = .requestFailed "Failed to sync with server." ∧
      past.head? = some (.notified h false)
  | .retry h q, past => ∃ trigger result, Reading h trigger q past ∧
      (w.network.reply q).result = some result ∧ result.error = .authenticationRequired
  | .answered r pending, past => pending = some r ∧ Receiver.Requested r past .server ∧
      r ∉ reads past
  | .accepted delta, past => ∃ r result, past.head? = some (.answered r (some r)) ∧
      (w.network.reply r).result = some result ∧ replyDelta P result = some delta
  | .posted _ _ _ _, _ | .sent _ _ _ _, _ | .registered _, _ | .asked _ _, _ | .notifying _, _
  | .notified _ _, _ | .released _, _ | .secretSet _ _, _ | .defaultSecretSet _, _ => True

/-- A run in which every report has a source reads no reply twice. -/
theorem nodup_reads {t : Trace P ι} (accounted : Always w.Accounted t) : (reads t).Nodup := by
  induction t with
  | nil => exact List.nodup_nil
  | cons o past ih =>
      obtain ⟨source, before⟩ := accounted
      have unread : ∀ h trigger q, Reading h trigger q past → q ∉ reads past := by
        rintro h trigger q ⟨older, rfl, -, unread⟩
        rwa [reads_cons_none rfl]
      cases o with
      | outcome h cause o =>
          cases cause with
          | none =>
              rw [reads_cons_none rfl]
              exact ih before
          | some q =>
              obtain ⟨trigger, result, reading, -⟩ := source
              rw [reads_cons_some rfl]
              exact List.nodup_cons.mpr ⟨unread h trigger q reading, ih before⟩
      | retry h q =>
          obtain ⟨trigger, result, reading, -⟩ := source
          rw [reads_cons_some rfl]
          exact List.nodup_cons.mpr ⟨unread h trigger q reading, ih before⟩
      | answered r pending =>
          obtain ⟨rfl, -, unread⟩ := source
          rw [reads_cons_some rfl]
          exact List.nodup_cons.mpr ⟨unread, ih before⟩
      | posted | sent | slot | registered | asked | accepted | notifying | notified | released
      | secretSet | defaultSecretSet =>
          rw [reads_cons_none rfl]
          exact ih before

/-- What has been read was given to `deleteLater`, and whatever a reply is connected to requested
it. -/
structure Traced (w : World P ι) : Prop where
  read : ∀ r ∈ reads w.trace, w.network.discarded r = true
  requested : ∀ r slot, w.network.receiver r = some slot → slot.Requested r w.trace
  accounted : Always w.Accounted w.trace

theorem Initial.traced (init : w.Initial) : w.Traced where
  read r member := by
    rw [init.trace] at member
    cases member
  requested r slot receiver := by
    rw [init.network] at receiver
    cases receiver
  accounted := by
    rw [init.trace]
    trivial

/-- What is owned has not been read. -/
theorem Traced.unread (traced : w.Traced) (inv : w.Inv) (slot : Receiver ι)
    (owns : w.Owns r slot) : r ∉ reads w.trace := by
  intro member
  have kept := (inv.of_owns owns).2.2
  rw [traced.read r member] at kept
  cases kept

theorem ne_next_of_discarded {n : Network ι} (gone : n.discarded r = true) : r ≠ n.next := by
  rintro rfl
  rw [Network.discarded, n.fresh n.next (Nat.le_refl _)] at gone
  cases gone

/-- A request for the time posts and discards nothing else. -/
theorem discarded_enlist (gone : w.network.discarded r = true) :
    (w.enlist h).network.discarded r = true := by
  cases pending : w.server.pendingReply with
  | some t =>
      rw [enlist_of_pending pending]
      exact gone
  | none =>
      rw [enlist_of_idle pending, network_append, network_ask, Network.discarded_post,
        if_neg (ne_next_of_discarded gone)]
      exact gone

/-- A new connection is that of the new request. -/
theorem requested_enlist (w : World P ι) (h : ι) :
    ∃ shown : Trace P ι, (w.enlist h).trace = shown ++ w.trace ∧ reads shown = [] ∧
      ∀ r slot, (w.enlist h).network.receiver r = some slot →
        w.network.receiver r = some slot ∨ slot.Requested r (w.enlist h).trace := by
  cases pending : w.server.pendingReply with
  | some t =>
      refine ⟨[.registered h], ?_, rfl, fun r slot connected => .inl ?_⟩
      · rw [enlist_of_pending pending]
        rfl
      · rw [enlist_of_pending pending] at connected
        exact connected
  | none =>
      refine ⟨[.registered h, .asked w.network.next w.toCore.timeDeltaRequest], ?_, rfl,
        fun r slot connected => ?_⟩
      · rw [enlist_of_idle pending]
        rfl
      · rw [enlist_of_idle pending, network_append, network_ask, Network.receiver_post] at connected
        split at connected
        · rename_i new
          cases connected
          rw [enlist_of_idle pending, new]
          exact .inr ⟨_, List.mem_cons_of_mem _ List.mem_cons_self⟩
        · exact .inl connected

/-- What a slot finds is a reply of its own that has not been read. -/
theorem Traced.reading (traced : w.Traced) (inv : w.Inv)
    (pending : (w.handler h).pendingReply = some q) :
    Reading h r q (.slot h r (some q) :: w.trace) :=
  ⟨w.trace, rfl, traced.requested q (.handler h) (inv.held h q pending).2.1,
    traced.unread inv (.handler h) pending⟩

/-- A reply may be unfinished when it is read, if the one that finished had been given up. -/
theorem Inv.read (inv : w.Inv) (finishing : w.Finishing r (.handler h))
    (pending : (w.handler h).pendingReply = some q) :
    (w.network.reply q).result = some (w.network.result q) ∨
      r ≠ q ∧ w.network.discarded r = true ∧ w.network.result q = .unfinished := by
  rcases eq_or_ne r q with rfl | other
  · exact .inl finishing.answer
  · cases stored : (w.network.reply q).result with
    | none =>
        have superseded : (w.handler h).pendingReply ≠ some r := by
          rw [pending]
          exact fun same => other (Option.some.inj same).symm
        refine .inr ⟨other, ?_, ?_⟩
        · rw [← Bool.not_eq_false, ← inv.pending_iff_kept finishing]
          exact superseded
        · rw [Network.result, stored]
          rfl
    | some result =>
        refine .inl ?_
        rw [Network.result, stored]
        rfl

variable [DecidableEq ι]

theorem discarded_timestampUpdated (gone : w.network.discarded r = true) :
    (w.timestampUpdated h).network.discarded r = true := by
  rw [network_timestampUpdated, Network.discarded_post, next_discardPending,
    if_neg (ne_next_of_discarded gone), discarded_discardPending, gone, Bool.true_or]

/-- A new connection is that of the message sent. -/
theorem requested_timestampUpdated {past : Trace P ι}
    (connected : (w.timestampUpdated h).network.receiver r = some slot) :
    w.network.receiver r = some slot ∨ slot.Requested r
      (.sent h (w.handler h).pendingReply w.network.next (w.message h) :: past) := by
  rw [network_timestampUpdated, Network.receiver_post, next_discardPending] at connected
  split at connected
  · rename_i new
    cases connected
    rw [new]
    exact .inr ⟨_, _, List.mem_cons_self⟩
  · rw [receiver_discardPending] at connected
    exact .inl connected

/-- What has been given to `deleteLater` stays given. -/
theorem Action.discarded {e : Event P ι} (action : Action w e w')
    (gone : w.network.discarded r = true) : w'.network.discarded r = true := by
  cases action with
  | @postNow h endpoint content =>
      exact discarded_timestampUpdated (w := w.beginPost h endpoint content) gone
  | @notifyUpdated h rest =>
      exact discarded_timestampUpdated (w := w.note (.notified h true)) gone
  | @notifyFailed h rest =>
      have before : (w.note (.notified h false)).network.discarded r = true := gone
      rw [network_timestampUpdateFailed, discarded_discardPending, before, Bool.true_or]
  | arrived =>
      rw [Network.discarded_arrive]
      exact gone
  | slotRetry =>
      apply discarded_enlist
      exact discarded_of_deleteLater gone
  | @serverRetry q finishing refused left =>
      have read : ((w.enterServer q).discard q).network.discarded r = true :=
        discarded_of_deleteLater gone
      rw [network_ask, Network.discarded_post, if_neg (ne_next_of_discarded read)]
      exact read
  | slotOutcome | serverFailed | serverUpdated => exact discarded_of_deleteLater gone
  | postDeferred | postBlocked | setSecret | setDefaultSecret | configure | returned | resumed
  | endUpdated | endFailed | destroyed | slotNull => exact gone

/-- What has a source keeps it. -/
theorem Action.accounted_grow {e : Event P ι} {o : Observation P ι} {past : Trace P ι}
    (action : Action w e w') (source : w.Accounted o past) : w'.Accounted o past := by
  cases o with
  | outcome h cause o =>
      cases cause with
      | none => exact source
      | some q =>
          obtain ⟨trigger, result, reading, same, stored | unfinished⟩ := source
          · exact ⟨trigger, result, reading, by rw [action.kind]; exact same,
              .inl (action.result stored)⟩
          · obtain ⟨other, superseded, nothing⟩ := unfinished
            exact ⟨trigger, result, reading, by rw [action.kind]; exact same,
              .inr ⟨other, action.discarded superseded, nothing⟩⟩
  | retry h q =>
      obtain ⟨trigger, result, reading, stored, refused⟩ := source
      exact ⟨trigger, result, reading, action.result stored, refused⟩
  | accepted delta =>
      obtain ⟨r, result, answer, stored, parsed⟩ := source
      exact ⟨r, result, answer, action.result stored, parsed⟩
  | posted | sent | slot | registered | asked | answered | notifying | notified | released
  | secretSet | defaultSecretSet => exact source

/-- A step adds to what is known. -/
theorem Traced.extend {e : Event P ι} (traced : w.Traced) (new : Trace P ι)
    (action : Action w e w') (emitted : w'.trace = new ++ w.trace)
    (read : ∀ r ∈ reads new, w'.network.discarded r = true)
    (receiver : ∀ r slot, w'.network.receiver r = some slot →
      w.network.receiver r = some slot ∨ slot.Requested r w'.trace)
    (accounted : Always w'.Accounted w.trace → Always w'.Accounted w'.trace) : w'.Traced where
  read r member := by
    rw [emitted, reads, List.filterMap_append] at member
    rcases List.mem_append.mp member with now | before
    · exact read r now
    · exact action.discarded (traced.read r before)
  requested r slot connected := by
    rcases receiver r slot connected with before | now
    · rw [emitted]
      exact (traced.requested r slot before).append new
    · exact now
  accounted := accounted (traced.accounted.mono fun _ _ => action.accounted_grow)

/-- A step that reads and posts nothing. -/
theorem Traced.of_frame {e : Event P ι} (traced : w.Traced) (new : Trace P ι)
    (action : Action w e w') (emitted : w'.trace = new ++ w.trace)
    (nothing : reads new = [])
    (receiver : ∀ r, w'.network.receiver r = w.network.receiver r)
    (accounted : Always w'.Accounted w.trace → Always w'.Accounted w'.trace) : w'.Traced := by
  refine traced.extend new action emitted (fun r member => ?_) (fun r slot connected => ?_)
    accounted
  · rw [nothing] at member
    cases member
  · rw [receiver] at connected
    exact .inl connected

theorem Traced.slotOutcome (traced : w.Traced) (inv : w.Inv)
    (finishing : w.Finishing r (.handler h)) (pending : (w.handler h).pendingReply = some q)
    (final : ¬ w.Rejected h q)
    (after : w' = ((w.enterSlot h r).takePending h q).respond h q
      ((w.handler h).kind.report P (w.network.result q))) : w'.Traced := by
  have action : Action w (.finish r) w' := after ▸ .slotOutcome finishing pending final
  have shown := trace_enterSlot w h r
  rw [pending] at shown
  have emitted : w'.trace = [.outcome h (some q) ((w.handler h).kind.report P (w.network.result q)),
      .slot h r (some q)] ++ w.trace := by
    rw [after, trace_respond, trace_takePending, shown]
    rfl
  have network : w'.network = (w.network.retire r).deleteLater q := by
    rw [after]
    rfl
  refine traced.extend _ action emitted ?_ ?_ fun before => ?_
  · intro p member
    cases List.mem_singleton.mp member
    rw [network]
    exact discarded_deleteLater_self (w.network.live_lt q (inv.held h q pending).1)
  · intro p slot connected
    rw [network, Network.receiver_deleteLater] at connected
    exact .inl connected
  · rw [emitted]
    refine ⟨⟨r, w.network.result q, traced.reading inv pending, ?_, ?_⟩, ?_, before⟩
    · rw [action.kind]
      exact Kind.reports _ _
    · rcases inv.read finishing pending with stored | ⟨other, superseded, nothing⟩
      · exact .inl (action.result stored)
      · exact .inr ⟨other, action.discarded superseded, nothing⟩
    · exact traced.requested r (.handler h) finishing.receiver

theorem Traced.slotRetry (traced : w.Traced) (inv : w.Inv)
    (finishing : w.Finishing r (.handler h)) (pending : (w.handler h).pendingReply = some q)
    (rejected : w.Rejected h q)
    (after : w' = (((w.enterSlot h r).takePending h q).spendRetry h q).enlist h) : w'.Traced := by
  have action : Action w (.finish r) w' := after ▸ .slotRetry finishing pending rejected
  obtain ⟨shown, trace, nothing, receiver⟩ :=
    requested_enlist (((w.enterSlot h r).takePending h q).spendRetry h q) h
  have emitted : w'.trace = (shown ++ [.retry h q, .slot h r (some q)]) ++ w.trace := by
    rw [after, trace, List.append_assoc, ← pending]
    rfl
  have stored : (w.network.reply q).result = some (w.network.result q) := by
    rcases inv.read finishing pending with stored | ⟨-, -, unfinished⟩
    · exact stored
    · have refused := rejected.1
      rw [unfinished] at refused
      cases refused
  refine traced.extend _ action emitted ?_ ?_ fun before => ?_
  · intro p member
    rw [reads, List.filterMap_append, ← reads, nothing, List.nil_append] at member
    cases List.mem_singleton.mp member
    rw [after]
    apply discarded_enlist
    exact discarded_deleteLater_self (w.network.live_lt q (inv.held h q pending).1)
  · intro p slot connected
    rw [after] at connected ⊢
    rcases receiver p slot connected with old | new
    · refine .inl ?_
      exact Network.receiver_deleteLater.symm.trans old
    · exact .inr new
  · rw [after, always_enlist (fun _ => trivial) fun _ _ _ => trivial, ← after]
    simp only [trace_spendRetry, trace_takePending, trace_enterSlot, pending, always_cons]
    refine ⟨⟨r, w.network.result q, traced.reading inv pending, action.result stored, rejected.1⟩,
      ?_, before⟩
    exact traced.requested r (.handler h) finishing.receiver

/-- The server reads the reply that finished, which it had asked for. -/
theorem Traced.answered (traced : w.Traced) (inv : w.Inv) (finishing : w.Finishing r .server)
    (action : Action w (.finish r) w') (more : Trace P ι)
    (emitted : w'.trace = more ++ (w.enterServer r).trace) (nothing : reads more = [])
    (gone : w'.network.discarded r = true)
    (receiver : ∀ q slot, w'.network.receiver q = some slot →
      w.network.receiver q = some slot ∨ slot.Requested q w'.trace)
    (accounted : Always w'.Accounted (w.enterServer r).trace → Always w'.Accounted w'.trace) :
    w'.Traced := by
  have own := inv.asked r finishing.live finishing.receiver
  rw [trace_enterServer, own.1] at emitted accounted
  refine traced.extend (more ++ [.answered r (some r)]) action ?_ ?_ receiver fun before => ?_
  · rw [emitted, List.append_assoc]
    rfl
  · intro q member
    rw [reads, List.filterMap_append, ← reads, nothing, List.nil_append] at member
    cases List.mem_singleton.mp member
    exact gone
  · have unread := traced.unread inv .server own
    exact accounted ⟨⟨rfl, traced.requested r .server finishing.receiver, unread⟩, before⟩

/-- **Whatever a step shows has a source.** -/
theorem Traced.step {e : Event P ι} (traced : w.Traced) (inv : w.Inv)
    (stepped : w.step e = some w') : w'.Traced := by
  cases step_action inv stepped with
  | @postNow h endpoint content =>
      have emitted := trace_timestampUpdated (w.beginPost h endpoint content) h
      refine traced.extend [_, _] (step_action inv stepped) emitted
        (fun r member => by cases member) (fun r slot connected => ?_) fun before => ?_
      · rw [emitted]
        exact requested_timestampUpdated (w := w.beginPost h endpoint content) connected
      · rw [emitted]
        exact ⟨trivial, trivial, before⟩
  | @notifyUpdated h rest inLoop =>
      have emitted := trace_timestampUpdated (w.note (.notified h true)) h
      refine traced.extend [_, _] (step_action inv stepped) emitted
        (fun r member => by cases member) (fun r slot connected => ?_) fun before => ?_
      · dsimp only
        rw [emitted]
        exact requested_timestampUpdated (w := w.note (.notified h true)) connected
      · dsimp only
        rw [emitted]
        exact ⟨trivial, trivial, before⟩
  | @notifyFailed h rest inLoop =>
      exact traced.of_frame [_, _] (step_action inv stepped) rfl rfl
        (fun r => receiver_discardPending _ h r) fun before => ⟨⟨rfl, rfl⟩, trivial, before⟩
  | slotNull finishing null =>
      exact traced.of_frame [_] (step_action inv stepped) rfl rfl (fun _ => rfl)
        fun before => ⟨traced.requested _ (.handler _) finishing.receiver, before⟩
  | slotOutcome finishing pending final =>
      cases stepped.symm.trans (step_slotOutcome finishing pending final)
      exact traced.slotOutcome inv finishing pending final rfl
  | slotRetry finishing pending rejected =>
      exact traced.slotRetry inv finishing pending rejected rfl
  | @serverRetry r finishing refused left =>
      have read : ((w.enterServer r).discard r).network.discarded r = true :=
        discarded_deleteLater_self (w.network.live_lt r finishing.live)
      refine traced.answered inv finishing (step_action inv stepped) [_] rfl rfl ?_
        (fun q slot connected => ?_) fun before => ⟨trivial, before⟩
      · rw [network_ask, Network.discarded_post, if_neg (ne_next_of_discarded read)]
        exact read
      · rw [network_ask, Network.receiver_post] at connected
        split at connected
        · rename_i new
          cases connected
          rw [new]
          exact .inr ⟨_, List.mem_cons_self⟩
        · exact .inl (Network.receiver_deleteLater.symm.trans connected)
  | @serverFailed r finishing refused left =>
      refine traced.answered inv finishing (step_action inv stepped) [_] rfl rfl
        (discarded_deleteLater_self (w.network.live_lt r finishing.live))
        (fun q slot connected => .inl ?_) fun before => ⟨trivial, before⟩
      exact Network.receiver_deleteLater.symm.trans connected
  | @serverUpdated r delta finishing accepted =>
      refine traced.answered inv finishing (step_action inv stepped) [_, _] rfl rfl
        (discarded_deleteLater_self (w.network.live_lt r finishing.live))
        (fun q slot connected => .inl ?_) fun before => ⟨trivial, ?_, before⟩
      · exact Network.receiver_deleteLater.symm.trans connected
      · have pending := (inv.asked r finishing.live finishing.receiver).1
        refine ⟨r, w.network.result r, ?_, ?_, accepted⟩
        · rw [← pending]
          rfl
        · exact Network.reply_result_deleteLater.trans finishing.answer
  | postDeferred =>
      exact traced.of_frame [_, _] (step_action inv stepped) rfl rfl (fun _ => rfl)
        fun before => ⟨trivial, trivial, before⟩
  | postBlocked | setSecret | setDefaultSecret | endUpdated | endFailed =>
      exact traced.of_frame [_] (step_action inv stepped) rfl rfl (fun _ => rfl)
        fun before => ⟨trivial, before⟩
  | arrived =>
      exact traced.of_frame [] (step_action inv stepped) rfl rfl
        (fun _ => Network.receiver_arrive _) id
  | configure | returned | resumed | destroyed =>
      exact traced.of_frame [] (step_action inv stepped) rfl rfl (fun _ => rfl) id

/-- Only the network stores a result. -/
theorem Action.arrival {e : Event P ι} {result : ReplyResult} (action : Action w e w')
    (stored : (w'.network.reply r).result = some result) :
    (w.network.reply r).result = some result ∨ e = .arrive r result := by
  cases action with
  | @arrived q result' live first =>
      rw [Network.reply_result_arrive (w.network.live_lt q live)] at stored
      split at stored
      · rename_i same
        cases stored
        rw [same]
        exact .inr rfl
      · exact .inl stored
  | postNow | slotOutcome | slotRetry | serverRetry | serverFailed | serverUpdated =>
      exact .inl (by simpa using stored)
  | notifyUpdated | notifyFailed => exact .inl (by simpa [note] using stored)
  | postDeferred | postBlocked | setSecret | setDefaultSecret | configure | returned | resumed
  | endUpdated | endFailed | destroyed | slotNull => exact .inl stored

/-- **Nothing is reported that did not arrive, and nothing twice.** Under any use, every outcome,
every retry and every time delta comes from a reply to a request its object made, read for the first
time, and reports what the network delivered in that reply: its error, or of a success the document
or the bytes; the one exception is an unfinished reply read because a superseded one, on which
`deleteLater` had been called, finished. -/
theorem reports_accounted {es : List (Event P ι)} (init : w.Initial)
    (run : FreeRun World.step w es w') :
    Always w'.Accounted w'.trace ∧ (reads w'.trace).Nodup ∧
      ∀ r result, (w'.network.reply r).result = some result → .arrive r result ∈ es := by
  have kept : w'.Inv ∧ w'.Traced :=
    run.invariant (I := fun w => w.Inv ∧ w.Traced)
      (fun both _ stepped => ⟨both.1.step stepped, both.2.step both.1 stepped⟩)
      ⟨init.inv, init.traced⟩
  refine ⟨kept.2.accounted, nodup_reads kept.2.accounted, fun r result stored => ?_⟩
  have source := run.source (I := Inv) (F := fun w => (w.network.reply r).result = some result)
    (B := fun e => e = .arrive r result) (fun inv _ stepped => inv.step stepped)
    (fun inv _ stepped stored => (step_action inv stepped).arrival stored) init.inv stored
  rcases source with before | ⟨e, member, rfl⟩
  · rw [init.network] at before
    cases before
  · exact member

/-- A rejected message, the answer of the server, and a post whose reply is read before it has
finished. -/
theorem reports_accounted_after_overlap :
    ∃ w', FreeRun World.step Sample.world
        ([Sample.secret, Sample.postByte 1] ++ Sample.completes 0 Sample.rejected ++
          Sample.completes 1 (Sample.answered 7) ++ [.next, .next, .ret, .arrive 2 Sample.succeeded,
          Sample.postByte 2, .finish 2]) w' ∧
      reads w'.trace = [3, 1, 0] ∧ Always w'.Accounted w'.trace ∧ (reads w'.trace).Nodup :=
  have run := run_of_isSome (by decide)
  have accounted := reports_accounted Sample.world_initial run
  ⟨_, run, by decide, accounted.1, accounted.2.1⟩

end World

end RestApiOut
