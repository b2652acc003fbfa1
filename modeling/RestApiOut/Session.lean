import RestApiOut.SerialUse
import RestApiOut.Signing
import RestApiOut.Library.Protocol

/-!
# The session of a handler

What a handler is for: it takes a post through to its outcome.  `Session.Next` states that as a
protocol over what can be observed of one handler, with no server, list, mutex or network in it: a
post is sent at once or waits for the clock; a finished reply is reported, unless it failed
authentication and the one retry is left; a retry waits for the clock; the clock comes, and the
message is sent again, or does not, and that is reported.  Every message of a session carries the
URL and the payload of its post, and what is reported is what the reply carried (`Reports`).

`serial_sessions` is the refinement: in serial use every handler follows its session, whatever the
other handlers do and however their completions are interleaved.
-/

namespace RestApiOut

open Transition History

variable {P : Platform} {ι : Type}

/-- What a handler reports of a finished reply. -/
def Kind.report (P : Platform) (kind : Kind) (result : ReplyResult) : Outcome P :=
  if result.error = .noError then kind.process P result else .requestFailed result.errorString

/-- What is to be reported of a reply: the text of its error; of a success the document in its body,
or that there is none, to a JSON handler, the body as it is and its content type to a binary one. -/
inductive Reports (P : Platform) : Kind → ReplyResult → Outcome P → Prop
  | failed {kind : Kind} {result : ReplyResult} (failed : result.error ≠ .noError) :
      Reports P kind result (.requestFailed result.errorString)
  | document {result : ReplyResult} {document : P.Document} (clean : result.error = .noError)
      (parsed : P.fromJson result.body = some document) :
      Reports P .json result (.jsonResponse document)
  | noDocument {result : ReplyResult} (clean : result.error = .noError)
      (unparsed : P.fromJson result.body = none) :
      Reports P .json result (.requestFailed "Response not JSON format")
  | bytes {result : ReplyResult} (clean : result.error = .noError) :
      Reports P .binary result (.response result.body (result.contentType.getD ""))

/-- A handler reports what it is to report. -/
theorem Kind.reports (kind : Kind) (result : ReplyResult) :
    Reports P kind result (kind.report P result) := by
  unfold Kind.report
  split
  · rename_i clean
    cases kind with
    | json =>
        cases parsed : P.fromJson result.body with
        | some document =>
            simp only [Kind.process, InesonicRestHandler.process, parsed]
            exact .document clean parsed
        | none =>
            simp only [Kind.process, InesonicRestHandler.process, parsed]
            exact .noDocument clean parsed
    | binary => exact .bytes clean
  · rename_i failed
    exact .failed failed

/-- The observations a session is made of. -/
def Observation.concerns (h : ι) : Observation P ι → Prop
  | .posted k _ _ _ | .sent k _ _ _ | .slot k _ _ | .outcome k _ _ | .retry k _ | .registered k
  | .notified k _ => k = h
  | .asked _ _ | .answered _ _ | .accepted _ | .notifying _ | .released _ | .secretSet _ _
  | .defaultSecretSet _ => False

theorem lastPost_append [DecidableEq ι] {h : ι} {new t : Trace P ι}
    (unconcerned : ∀ o ∈ new, ¬ o.concerns h) : lastPost h (new ++ t) = lastPost h t := by
  induction new with
  | nil => rfl
  | cons o new ih =>
      rw [List.cons_append]
      have before := ih fun a member => unconcerned a (List.mem_cons_of_mem o member)
      have now := unconcerned o List.mem_cons_self
      cases o with
      | posted k => exact (if_neg now).trans before
      | sent | slot | outcome | retry | registered | asked | answered | accepted | notifying
      | notified | released | secretSet | defaultSecretSet => exact before

/-- The arguments of a `post`, with the scheme and host it found. -/
abbrev Post (P : Platform) := P.Url × String × Content P

/-- Where a handler is with its post.  `retries` is what it may still spend; `posted`, `called`,
`failing`, `reading` and `retrying` are passed within one step. -/
inductive Session (P : Platform)
  | idle
  | posted (post : Post P)
  | onWire (r : ReplyId) (retries : Nat) (post : Post P)
  | waiting (retries : Nat) (post : Post P)
  | called (retries : Nat) (post : Post P)
  | failing
  | reading (r : ReplyId) (retries : Nat) (post : Post P)
  | retrying (retries : Nat) (post : Post P)

/-- The protocol of the handler `h` of this class, given the results that have arrived. -/
inductive Session.Next (h : ι) (kind : Kind) (arrived : ReplyId → Option ReplyResult) :
    Session P → Observation P ι → Session P → Prop
  | other {s : Session P} {o : Observation P ι} (unconcerned : ¬ o.concerns h) :
      Next h kind arrived s o s
  | post {base : P.Url} {endpoint : String} {content : Content P} :
      Next h kind arrived .idle (.posted h base endpoint content)
        (.posted (base, endpoint, content))
  | send {r : ReplyId} {m : Message P} {post : Post P}
      (carries : m.IsFor post.1 post.2.1 post.2.2) :
      Next h kind arrived (.posted post) (.sent h none r m) (.onWire r 1 post)
  | defer {post : Post P} :
      Next h kind arrived (.posted post) (.registered h) (.waiting 1 post)
  | finish {r : ReplyId} {retries : Nat} {post : Post P} :
      Next h kind arrived (.onWire r retries post) (.slot h r (some r)) (.reading r retries post)
  | outcome {r : ReplyId} {retries : Nat} {post : Post P} {result : ReplyResult} {o : Outcome P}
      (answer : arrived r = some result)
      (final : result.error = .authenticationRequired → retries = 0)
      (reported : Reports P kind result o) :
      Next h kind arrived (.reading r retries post) (.outcome h (some r) o) .idle
  | reject {r : ReplyId} {retries : Nat} {post : Post P} {result : ReplyResult}
      (answer : arrived r = some result) (refused : result.error = .authenticationRequired) :
      Next h kind arrived (.reading r (retries + 1) post) (.retry h r) (.retrying retries post)
  | wait {retries : Nat} {post : Post P} :
      Next h kind arrived (.retrying retries post) (.registered h) (.waiting retries post)
  | call {retries : Nat} {post : Post P} :
      Next h kind arrived (.waiting retries post) (.notified h true) (.called retries post)
  | resend {r : ReplyId} {retries : Nat} {m : Message P} {post : Post P}
      (carries : m.IsFor post.1 post.2.1 post.2.2) :
      Next h kind arrived (.called retries post) (.sent h none r m) (.onWire r retries post)
  | giveUp {retries : Nat} {post : Post P} :
      Next h kind arrived (.waiting retries post) (.notified h false) .failing
  | fail : Next h kind arrived .failing
      (.outcome h none (.requestFailed "Failed to sync with server.")) .idle

namespace World

variable {w w' : World P ι} {h k : ι} {q r : ReplyId}

/-- The protocol of `h` with the results the network has stored so far. -/
def session (w : World P ι) (h : ι) : Session P → Observation P ι → Session P → Prop :=
  Session.Next h (w.handler h).kind fun r => (w.network.reply r).result

/-- What has arrived is what is read. -/
theorem Finishing.answer {slot : Receiver ι} (finishing : w.Finishing r slot) :
    (w.network.reply r).result = some (w.network.result r) :=
  Network.stored_of_arrived finishing.arrived

variable [DecidableEq ι]

/-- What a session means for the program's state. -/
def InSession (w : World P ι) (h : ι) : Session P → Prop
  | .idle => (w.handler h).pendingReply = none ∧ w.awaiting.count h = 0
  | .onWire r retries post => (w.handler h).pendingReply = some r ∧ w.awaiting.count h = 0 ∧
      (w.handler h).retriesRemaining = retries ∧ lastPost h w.trace = some post
  | .waiting retries post => (w.handler h).pendingReply = none ∧ w.awaiting.count h = 1 ∧
      (w.handler h).retriesRemaining = retries ∧ lastPost h w.trace = some post
  | .posted _ | .called _ _ | .failing | .reading _ _ _ | .retrying _ _ => False

/-! ## The protocol of a handler grows -/

theorem kind_beginPost (w : World P ι) (h k : ι) (endpoint : String) (content : Content P) :
    ((w.beginPost h endpoint content).handler k).kind = (w.handler k).kind :=
  field_update_of_eq Handler.kind rfl

theorem kind_timestampUpdated (w : World P ι) (h k : ι) :
    ((w.timestampUpdated h).handler k).kind = (w.handler k).kind := by
  rw [timestampUpdated_eq]
  exact field_update_of_eq Handler.kind rfl

/-- A handler stays of its class. -/
theorem Action.kind {e : Event P ι} (action : Action w e w') (k : ι) :
    (w'.handler k).kind = (w.handler k).kind := by
  cases action with
  | postNow => rw [kind_timestampUpdated, kind_beginPost]
  | notifyUpdated => exact kind_timestampUpdated _ _ k
  | postDeferred | postBlocked => exact kind_beginPost w _ k _ _
  | setSecret => exact field_update_of_eq Handler.kind rfl
  | notifyFailed => exact (sameRequest_timestampUpdateFailed _ _ k).kind
  | @slotOutcome h r q => exact (sameRequest_takePending (w.enterSlot h r) h k q).kind
  | @slotRetry h r q =>
      rw [handler_enlist]
      exact ((sameRequest_takePending (w.enterSlot h r) h k q).trans
        (sameRequest_spendRetry ((w.enterSlot h r).takePending h q) h k q)).kind
  | setDefaultSecret | configure | returned | resumed | endUpdated | endFailed | arrived
  | destroyed | slotNull | serverRetry | serverFailed | serverUpdated => rfl

/-- The network stores one result a reply. -/
theorem Action.result {e : Event P ι} {result : ReplyResult} (action : Action w e w')
    (stored : (w.network.reply r).result = some result) :
    (w'.network.reply r).result = some result := by
  cases action with
  | postNow => simpa using stored
  | notifyUpdated => simpa [note] using stored
  | notifyFailed => simpa [note] using stored
  | slotRetry => simpa using stored
  | slotOutcome | serverRetry | serverFailed | serverUpdated => simpa using stored
  | @arrived r' result' live first =>
      exact Network.stored_arrive (w.network.live_lt r' live) first result' stored
  | postDeferred | postBlocked | setSecret | setDefaultSecret | configure | returned | resumed
  | endUpdated | endFailed | destroyed | slotNull => exact stored

theorem Action.session_grow {e : Event P ι} {s t : Session P} {o : Observation P ι}
    (action : Action w e w') (allowed : w.session h s o t) : w'.session h s o t := by
  unfold session at allowed ⊢
  rw [action.kind h]
  cases allowed with
  | outcome answer final reported => exact .outcome (action.result answer) final reported
  | reject answer refused => exact .reject (action.result answer) refused
  | other unconcerned => exact .other unconcerned
  | post => exact .post
  | send carries => exact .send carries
  | defer => exact .defer
  | finish => exact .finish
  | wait => exact .wait
  | call => exact .call
  | resend carries => exact .resend carries
  | giveUp => exact .giveUp
  | fail => exact .fail

/-! ## One step -/

theorem InSession.of_frame {s : Session P} (here : w.InSession h s)
    (pending : (w'.handler h).pendingReply = (w.handler h).pendingReply)
    (retries : (w'.handler h).retriesRemaining = (w.handler h).retriesRemaining)
    (awaiting : w'.awaiting.count h = w.awaiting.count h)
    (last : lastPost h w'.trace = lastPost h w.trace) : w'.InSession h s := by
  cases s with
  | idle | onWire | waiting => simpa only [InSession, pending, retries, awaiting, last] using here
  | posted | called | failing | reading | retrying => exact here

/-- A step that shows nothing of `h` leaves it in its session. -/
theorem InSession.stays {s : Session P} (here : w.InSession h s) (new : Trace P ι)
    (emitted : w'.trace = new ++ w.trace) (unconcerned : ∀ o ∈ new, ¬ o.concerns h)
    (pending : (w'.handler h).pendingReply = (w.handler h).pendingReply)
    (retries : (w'.handler h).retriesRemaining = (w.handler h).retriesRemaining)
    (awaiting : w'.awaiting.count h = w.awaiting.count h) :
    ∃ new t, w'.trace = new ++ w.trace ∧ Follows (w'.session h) s new t ∧ w'.InSession h t :=
  ⟨new, s, emitted, .skip fun o member => .other (unconcerned o member),
    here.of_frame pending retries awaiting (emitted ▸ lastPost_append unconcerned)⟩

omit [DecidableEq ι] in
theorem Finishing.enabled {slot : Receiver ι} (finishing : w.Finishing r slot) :
    w.control = .loop ∧ r ∈ w.network.live ∧ w.network.arrived r = true :=
  ⟨finishing.loop, finishing.live, finishing.arrived⟩

/-- The slot of a handler reports what the reply it read carries. -/
theorem step_slotOutcome (finishing : w.Finishing r (.handler h))
    (pending : (w.handler h).pendingReply = some q) (final : ¬ w.Rejected h q) :
    w.step (.finish r) = some (((w.enterSlot h r).takePending h q).respond h q
      ((w.handler h).kind.report P (w.network.result q))) := by
  have reads : ((w.enterSlot h r).handler h).pendingReply = some q := pending
  have kept : ¬ (w.enterSlot h r).Rejected h q := final
  have result : (w.enterSlot h r).network.result q = w.network.result q := rfl
  have entered : w.step (.finish r) = some ((w.enterSlot h r).handlerResponseReceived h) := by
    rw [step, if_pos finishing.enabled, deliver, finishing.receiver]
    rfl
  rw [entered, handlerResponseReceived_eq, responseReceivedWith_of_pending _ reads, result,
    if_neg kept, Kind.report]
  by_cases clean : (w.network.result q).error = .noError
  · rw [if_pos clean, if_pos clean]
    rfl
  · rw [if_neg clean, if_neg clean]

/-- A handler that may be posted on is idle. -/
theorem InSession.idle_of_closed {s : Session P} (here : w.InSession h s) (serial : w.Serial)
    (closed : posts h w.trace = outcomes h w.trace) : s = .idle := by
  have balance := (serial.balanced h).posts
  simp only [Account.due, account] at balance
  cases s with
  | idle => rfl
  | onWire r retries post =>
      have own := here.1
      rw [serial.no_reply_of_closed closed] at own
      cases own
  | waiting retries post =>
      have waits := here.2.1
      omega
  | posted | called | failing | reading | retrying => exact absurd here id

/-- A handler the server owes a callback is waiting. -/
theorem InSession.waiting_of_awaiting {s : Session P} (here : w.InSession h s)
    (waits : h ∈ w.awaiting) : ∃ post, lastPost h w.trace = some post ∧
      s = .waiting (w.handler h).retriesRemaining post := by
  have counted : 0 < w.awaiting.count h := List.count_pos_iff.mpr waits
  cases s with
  | idle => exact absurd here.2 (Nat.ne_of_gt counted)
  | onWire r retries post => exact absurd here.2.1 (Nat.ne_of_gt counted)
  | waiting retries post =>
      obtain ⟨-, -, left, last⟩ := here
      exact ⟨post, last, by rw [left]⟩
  | posted | called | failing | reading | retrying => exact absurd here id

/-- A handler that holds a reply has it on the wire. -/
theorem InSession.onWire_of_pending {s : Session P} (here : w.InSession h s)
    (pending : (w.handler h).pendingReply = some r) : ∃ post, lastPost h w.trace = some post ∧
      s = .onWire r (w.handler h).retriesRemaining post := by
  cases s with
  | idle =>
      rw [here.1] at pending
      cases pending
  | onWire q retries post =>
      obtain ⟨own, -, left, last⟩ := here
      cases own.symm.trans pending
      exact ⟨post, last, by rw [left]⟩
  | waiting retries post =>
      rw [here.1] at pending
      cases pending
  | posted | called | failing | reading | retrying => exact absurd here id

theorem session_postNow {s : Session P} {endpoint : String} {content : Content P} (inv : w.Inv)
    (serial : w.Serial) (configured : w.Configured) (kind : (w.handler h).kind = content.kind)
    (here : w.InSession k s) (free : w.control.locked = false)
    (idle : w.server.pendingReply = none)
    (closed : posts h w.trace = outcomes h w.trace)
    (after : w' = (w.beginPost h endpoint content).timestampUpdated h) :
    ∃ new t, w'.trace = new ++ w.trace ∧ Follows (w'.session k) s new t ∧ w'.InSession k t := by
  subst after
  have nobody := inv.awaiting_of_idle free idle
  have nobody' := inv.awaiting_postNow h endpoint content free idle
  have emitted := trace_timestampUpdated (w.beginPost h endpoint content) h
  rw [pendingReply_beginPost, serial.no_reply_of_closed closed, trace_beginPost] at emitted
  rcases eq_or_ne h k with rfl | mine
  · cases here.idle_of_closed serial closed
    have last : lastPost h (w.beginPost h endpoint content).trace =
        some (w.server.currentSchemeAndHost, endpoint, content) := if_pos rfl
    have carries := (configured.beginPost endpoint kind).isFor_message last
    refine ⟨[_, _], .onWire w.network.next 1 _, emitted, .cons (.cons .nil .post) (.send carries),
      ?_, ?_, ?_, ?_⟩
    · rw [pendingReply_timestampUpdated, if_pos rfl]
      rfl
    · rw [nobody']
      rfl
    · rw [retriesRemaining_timestampUpdated, retriesRemaining_beginPost, if_pos rfl]
    · rw [trace_timestampUpdated]
      exact last
  · refine here.stays [_, _] emitted ?_ ?_ ?_ ?_
    · intro o member
      rcases List.mem_pair.mp member with rfl | rfl
      · exact mine
      · exact mine
    · rw [pendingReply_timestampUpdated, if_neg (Ne.symm mine), pendingReply_beginPost]
    · rw [retriesRemaining_timestampUpdated, retriesRemaining_beginPost, if_neg (Ne.symm mine)]
    · rw [nobody, nobody']

theorem session_postDeferred {s : Session P} {endpoint : String} {content : Content P}
    (serial : w.Serial) (here : w.InSession k s) (free : w.control.locked = false)
    (closed : posts h w.trace = outcomes h w.trace) :
    ∃ new t, ((w.beginPost h endpoint content).append h).trace = new ++ w.trace ∧
      Follows (((w.beginPost h endpoint content).append h).session k) s new t ∧
      ((w.beginPost h endpoint content).append h).InSession k t := by
  have queued : ((w.beginPost h endpoint content).append h).awaiting = w.awaiting ++ [h] :=
    awaiting_append (w := w.beginPost h endpoint content) free
  rcases eq_or_ne h k with rfl | mine
  · cases here.idle_of_closed serial closed
    refine ⟨[_, _], .waiting 1 _, rfl, .cons (.cons .nil .post) .defer, ?_, ?_, ?_, if_pos rfl⟩
    · rw [handler_append, pendingReply_beginPost]
      exact here.1
    · rw [queued, List.count_append, here.2, List.count_singleton_self]
    · rw [handler_append, retriesRemaining_beginPost, if_pos rfl]
  · refine here.stays [_, _] rfl ?_ (pendingReply_beginPost w h k endpoint content) ?_ ?_
    · intro o member
      rcases List.mem_pair.mp member with rfl | rfl
      · exact mine
      · exact mine
    · rw [handler_append, retriesRemaining_beginPost, if_neg (Ne.symm mine)]
    · rw [queued, List.count_append, List.count_singleton, if_neg (by simp [mine]), Nat.add_zero]

theorem session_notifyUpdated {s : Session P} {rest : List ι} (serial : w.Serial)
    (configured : w.Configured) (here : w.InSession k s)
    (inLoop : w.control = .updating (h :: rest))
    (after : w' = { (w.note (.notified h true)).timestampUpdated h with
      control := .updating rest }) :
    ∃ new t, w'.trace = new ++ w.trace ∧ Follows (w'.session k) s new t ∧ w'.InSession k t := by
  have waited := awaiting_updating inLoop
  have noReply : (w.handler h).pendingReply = none := by
    apply serial.no_reply_of_awaiting (h := h)
    rw [waited]
    exact List.mem_cons_self
  have single := (serial.balanced h).single
  simp only [Account.due, account, waited, List.count_cons_self] at single
  have emitted : w'.trace = [.sent h none w.network.next ((w.note (.notified h true)).message h),
      .notified h true] ++ w.trace := by
    subst after
    rw [← noReply]
    exact trace_timestampUpdated (w.note (.notified h true)) h
  have awaiting : w'.awaiting = rest := by
    subst after
    exact awaiting_mk_updating _ _ _
  have pending : ∀ j, (w'.handler j).pendingReply =
      if j = h then some w.network.next else (w.handler j).pendingReply := by
    subst after
    exact pendingReply_timestampUpdated (w.note (.notified h true)) h
  have retries : ∀ j, (w'.handler j).retriesRemaining = (w.handler j).retriesRemaining := by
    subst after
    exact retriesRemaining_timestampUpdated (w.note (.notified h true)) h
  rcases eq_or_ne h k with rfl | mine
  · obtain ⟨post, last, rfl⟩ :=
      here.waiting_of_awaiting (by rw [waited]; exact List.mem_cons_self)
    refine ⟨_, .onWire w.network.next (w.handler h).retriesRemaining post, emitted,
      .cons (.cons .nil .call) (.resend (configured.isFor_message last)), ?_, ?_, retries h, ?_⟩
    · rw [pending, if_pos rfl]
    · rw [awaiting]
      omega
    · rw [emitted]
      exact last
  · refine here.stays _ emitted ?_ ?_ (retries k) ?_
    · intro o member
      rcases List.mem_pair.mp member with rfl | rfl
      · exact mine
      · exact mine
    · rw [pending, if_neg (Ne.symm mine)]
    · rw [waited, awaiting, List.count_cons_of_ne mine]

theorem session_notifyFailed {s : Session P} {rest : List ι} (serial : w.Serial)
    (here : w.InSession k s) (inLoop : w.control = .failing (h :: rest))
    (after : w' = { (w.note (.notified h false)).timestampUpdateFailed h with
      control := .failed h rest }) :
    ∃ new t, w'.trace = new ++ w.trace ∧ Follows (w'.session k) s new t ∧ w'.InSession k t := by
  have waited := awaiting_failing inLoop
  have single := (serial.balanced h).single
  simp only [Account.due, account, waited, List.count_cons_self] at single
  have emitted : w'.trace = [.outcome h none (.requestFailed "Failed to sync with server."),
      .notified h false] ++ w.trace := by
    subst after
    rfl
  have awaiting : w'.awaiting = rest := by
    subst after
    exact awaiting_mk_failed _ _ _
  have pending : ∀ j, (w'.handler j).pendingReply =
      if j = h then none else (w.handler j).pendingReply := by
    subst after
    exact pendingReply_timestampUpdateFailed (w.note (.notified h false)) h
  have retries : ∀ j, (w'.handler j).retriesRemaining = (w.handler j).retriesRemaining := by
    subst after
    exact retriesRemaining_timestampUpdateFailed (w.note (.notified h false)) h
  rcases eq_or_ne h k with rfl | mine
  · obtain ⟨post, -, rfl⟩ :=
      here.waiting_of_awaiting (by rw [waited]; exact List.mem_cons_self)
    refine ⟨_, .idle, emitted, .cons (.cons .nil .giveUp) .fail, ?_, ?_⟩
    · rw [pending, if_pos rfl]
    · rw [awaiting]
      omega
  · refine here.stays _ emitted ?_ ?_ (retries k) ?_
    · intro o member
      rcases List.mem_pair.mp member with rfl | rfl
      · exact mine
      · exact mine
    · rw [pending, if_neg (Ne.symm mine)]
    · rw [waited, awaiting, List.count_cons_of_ne mine]

theorem session_slotOutcome {s : Session P} (here : w.InSession k s)
    (finishing : w.Finishing r (.handler h)) (pending : (w.handler h).pendingReply = some r)
    (final : ¬ w.Rejected h r)
    (after : w' = ((w.enterSlot h r).takePending h r).respond h r
      ((w.handler h).kind.report P (w.network.result r))) :
    ∃ new t, w'.trace = new ++ w.trace ∧ Follows (w'.session k) s new t ∧ w'.InSession k t := by
  subst after
  have shown := trace_enterSlot w h r
  rw [pending] at shown
  have emitted : (((w.enterSlot h r).takePending h r).respond h r
      ((w.handler h).kind.report P (w.network.result r))).trace =
      [.outcome h (some r) ((w.handler h).kind.report P (w.network.result r)),
        .slot h r (some r)] ++ w.trace := by
    rw [trace_respond, trace_takePending, shown]
    rfl
  have waits : (((w.enterSlot h r).takePending h r).respond h r
      ((w.handler h).kind.report P (w.network.result r))).awaiting = w.awaiting := by
    rw [awaiting_of_free (by rfl), awaiting_of_free finishing.free]
    rfl
  have held := pendingReply_takePending (w.enterSlot h r) h k r
  have retries := retriesRemaining_takePending (w.enterSlot h r) h k r
  rcases eq_or_ne h k with rfl | mine
  · obtain ⟨post, -, rfl⟩ := here.onWire_of_pending pending
    have kind := (sameRequest_takePending (w.enterSlot h r) h h r).kind
    refine ⟨[_, _], .idle, emitted, .cons (.cons .nil .finish) ?_, ?_, ?_⟩
    · have answer : ((((w.enterSlot h r).takePending h r).respond h r
          ((w.handler h).kind.report P (w.network.result r))).network.reply r).result =
          some (w.network.result r) := by
        rw [← finishing.answer]
        simp
      have spent : (w.network.result r).error = .authenticationRequired →
          (w.handler h).retriesRemaining = 0 := by
        intro refused
        by_contra left
        exact final ⟨refused, Nat.pos_of_ne_zero left⟩
      unfold session
      rw [handler_respond, kind]
      exact .outcome answer spent (Kind.reports _ _)
    · rw [handler_respond, held, if_pos rfl]
    · rw [waits]
      exact here.2.1
  · refine here.stays _ emitted ?_ ?_ retries (by rw [waits])
    · intro o member
      rcases List.mem_pair.mp member with rfl | rfl
      · exact mine
      · exact mine
    · rw [handler_respond, held, if_neg (Ne.symm mine)]
      rfl

omit [DecidableEq ι] in
/-- A retry that has been counted waits for the clock, which may be asked for first. -/
theorem follows_enlist (w : World P ι) (h : ι) :
    ∃ shown : Trace P ι, (w.enlist h).trace = shown ++ w.trace ∧
      (∀ kind arrived retries post, Follows (Session.Next h kind arrived) (.retrying retries post)
        shown (.waiting retries post)) ∧
      ∀ o ∈ shown, ∀ k, h ≠ k → ¬ o.concerns k := by
  cases pending : w.server.pendingReply with
  | some q =>
      refine ⟨[.registered h], ?_, fun kind arrived retries post => .cons .nil .wait, ?_⟩
      · rw [enlist_of_pending pending]
        rfl
      · intro o member k mine
        cases List.mem_singleton.mp member
        exact mine
  | none =>
      refine ⟨[.registered h, .asked w.network.next w.toCore.timeDeltaRequest], ?_,
        fun kind arrived retries post => .cons (.cons .nil (.other id)) .wait, ?_⟩
      · rw [enlist_of_idle pending]
        rfl
      · intro o member k mine
        rcases List.mem_pair.mp member with rfl | rfl
        · exact mine
        · exact id

theorem session_slotRetry {s : Session P} (here : w.InSession k s)
    (finishing : w.Finishing r (.handler h)) (pending : (w.handler h).pendingReply = some r)
    (rejected : w.Rejected h r)
    (after : w' = (((w.enterSlot h r).takePending h r).spendRetry h r).enlist h) :
    ∃ new t, w'.trace = new ++ w.trace ∧ Follows (w'.session k) s new t ∧ w'.InSession k t := by
  have free : (((w.enterSlot h r).takePending h r).spendRetry h r).control.locked = false := by
    simp [finishing.loop, Control.locked]
  have queued : w'.awaiting = w.awaiting ++ [h] := by
    rw [after]
    exact awaiting_enlist free
  have held : ∀ j, (w'.handler j).pendingReply =
      if j = h then none else (w.handler j).pendingReply := by
    intro j
    rw [after]
    simp
  have retries : ∀ j, (w'.handler j).retriesRemaining =
      if j = h then (w.handler h).retriesRemaining - 1 else (w.handler j).retriesRemaining := by
    intro j
    rw [after]
    simp
  obtain ⟨shown, trace, waits, unconcerned⟩ :=
    follows_enlist (((w.enterSlot h r).takePending h r).spendRetry h r) h
  have emitted : w'.trace = (shown ++ [.retry h r, .slot h r (some r)]) ++ w.trace := by
    rw [after, trace, List.append_assoc, ← pending]
    rfl
  rcases eq_or_ne h k with rfl | mine
  · obtain ⟨post, last, rfl⟩ := here.onWire_of_pending pending
    obtain ⟨left, spend⟩ := Nat.exists_eq_succ_of_ne_zero (Nat.ne_of_gt rejected.2)
    have answer : (w'.network.reply r).result = some (w.network.result r) := by
      rw [after, ← finishing.answer]
      simp
    have read : Follows (w'.session h) (.onWire r (w.handler h).retriesRemaining post)
        [.retry h r, .slot h r (some r)] (.retrying left post) := by
      rw [spend]
      exact .cons (.cons .nil .finish) (.reject answer rejected.1)
    refine ⟨_, .waiting left post, emitted, read.append (waits _ _ _ _), ?_, ?_, ?_, ?_⟩
    · rw [held, if_pos rfl]
    · rw [queued, List.count_append, here.2.1, List.count_singleton_self]
    · rw [retries, if_pos rfl, spend, Nat.succ_sub_one]
    · rw [after, lastPost_enlist]
      exact last
  · refine here.stays _ emitted ?_ ?_ ?_ ?_
    · intro o member
      rcases List.mem_append.mp member with enlisted | slot
      · exact unconcerned o enlisted k mine
      · rcases List.mem_pair.mp slot with rfl | rfl
        · exact mine
        · exact mine
    · rw [held, if_neg (Ne.symm mine)]
    · rw [retries, if_neg (Ne.symm mine)]
    · rw [queued, List.count_append, List.count_singleton, if_neg (by simp [mine]), Nat.add_zero]

/-- **One step of the program is a stretch of every handler's session.** -/
theorem session_step {e : Event P ι} {s : Session P} (inv : w.Inv) (serial : w.Serial)
    (configured : w.Configured) (guarded : SerialUse w e) (stepped : w.step e = some w')
    (here : w.InSession k s) :
    ∃ new t, w'.trace = new ++ w.trace ∧ Follows (w'.session k) s new t ∧ w'.InSession k t := by
  cases step_action inv stepped with
  | postNow user free idle kind =>
      exact session_postNow inv serial configured kind here free idle guarded.1 rfl
  | postDeferred user free pending kind =>
      exact session_postDeferred serial here free guarded.1
  | postBlocked inLoop =>
      have outside := guarded.2
      rw [inLoop] at outside
      cases outside
  | notifyUpdated inLoop => exact session_notifyUpdated serial configured here inLoop rfl
  | notifyFailed inLoop => exact session_notifyFailed serial here inLoop rfl
  | slotNull finishing null =>
      rw [serial.own_finished inv finishing] at null
      cases null
  | slotOutcome finishing pending final =>
      rw [serial.own_finished inv finishing] at pending
      cases pending
      have own := serial.own_finished inv finishing
      cases stepped.symm.trans (step_slotOutcome finishing own final)
      exact session_slotOutcome here finishing own final rfl
  | slotRetry finishing pending rejected =>
      rw [serial.own_finished inv finishing] at pending
      cases pending
      exact session_slotRetry here finishing (serial.own_finished inv finishing) rejected rfl
  | setSecret =>
      refine here.stays [_] rfl ?_ (pendingReply_setSecret _ _ _ _)
        (retriesRemaining_setSecret _ _ _ _) rfl
      intro o member
      cases List.mem_singleton.mp member
      exact id
  | setDefaultSecret =>
      refine here.stays [_] rfl ?_ rfl rfl rfl
      intro o member
      cases List.mem_singleton.mp member
      exact id
  | configure plain =>
      refine here.stays [] rfl (by simp) rfl rfl ?_
      rw [awaiting, awaiting, plain.waiting]
  | returned callback =>
      refine here.stays [] rfl (by simp) rfl rfl ?_
      rw [awaiting_of_free (free_of_callback callback), awaiting_of_free (by rfl)]
  | resumed inLoop =>
      refine here.stays [] rfl (by simp) rfl rfl ?_
      rw [awaiting_failed inLoop, awaiting_failing (by rfl)]
  | arrived | destroyed => exact here.stays [] rfl (by simp) rfl rfl rfl
  | endUpdated inLoop | endFailed inLoop =>
      refine here.stays [_] rfl ?_ rfl rfl ?_
      · intro o member
        cases List.mem_singleton.mp member
        exact id
      · simp [awaiting, inLoop, Control.locked, Control.rest, Core.release, withCore]
  | serverRetry =>
      refine here.stays [_, _] rfl ?_ rfl rfl rfl
      intro o member
      rcases List.mem_pair.mp member with rfl | rfl
      · exact id
      · exact id
  | serverFailed finishing =>
      refine here.stays [_, _] rfl ?_ rfl rfl ?_
      · intro o member
        rcases List.mem_pair.mp member with rfl | rfl
        · exact id
        · exact id
      · rw [awaiting_startLoop (by simp [finishing.free])]
        rfl
  | serverUpdated finishing =>
      refine here.stays [_, _, _] rfl ?_ rfl rfl ?_
      · intro o member
        simp only [List.mem_cons, List.not_mem_nil, or_false] at member
        rcases member with rfl | rfl | rfl
        · exact id
        · exact id
        · exact id
      · rw [awaiting_startLoop (by simp [finishing.free])]
        rfl

/-- **Serial use refines the session.** Whatever the other handlers do and in whatever order replies
complete, all that is observed of a handler follows its protocol, with every outcome read from the
reply that carries it; and its fields say where in the session it is. -/
theorem serial_sessions {es : List (Event P ι)} (init : w.Initial)
    (run : Run World.step SerialUse w es w') (h : ι) :
    ∃ s, Follows (w'.session h) .idle w'.trace s ∧ w'.InSession h s := by
  have start : w.InSession h .idle := ⟨init.handlerPending h, by rw [init.awaiting]; rfl⟩
  have simulate : ∀ {u v : World P ι} {e : Event P ι} {s : Session P},
      u.Inv ∧ u.Serial ∧ u.Configured → SerialUse u e → u.step e = some v → u.InSession h s →
      ∃ new t, v.trace = new ++ u.trace ∧ Follows (v.session h) s new t ∧ v.InSession h t := by
    intro u v e s ⟨inv, serial, configured⟩ guarded stepped here
    exact session_step inv serial configured guarded stepped here
  refine run.follows ?_ ?_ simulate ⟨init.inv, init.serial, init.configured⟩ ?_ start
  · intro u e v ⟨inv, serial, configured⟩ guarded stepped
    exact ⟨inv.step stepped, serial.step inv guarded stepped,
      configured.action (step_action inv stepped)⟩
  · intro u e v ⟨inv, _, _⟩ _ stepped p o q allowed
    exact (step_action inv stepped).session_grow allowed
  · rw [init.trace]
    exact .nil

/-- A rejected post, a post of the other handler made while the clock is being read, and both
outcomes. -/
theorem serial_sessions_through_retry :
    ∃ w', Run World.step SerialUse Sample.world
        ([Sample.secret, Sample.postByte 1] ++ Sample.completes 0 Sample.rejected ++
          [Sample.postObject 1] ++ Sample.completes 1 (Sample.answered 7) ++
          [.next, .next, .next, .ret] ++ Sample.completes 2 Sample.succeeded ++ [.ret] ++
          Sample.completes 3 Sample.refused) w' ∧
      ∀ h, ∃ s, Follows (w'.session h) .idle w'.trace s ∧ w'.InSession h s :=
  exists_run (by decide) fun _ run => serial_sessions Sample.world_initial run

end World

end RestApiOut
