import RestApiOut.Library.Protocol
import RestApiOut.WebHook.Moment
import RestApiOut.WebHook.Sample

/-!
# The session of a web hook

A call of `send` or `forceTimeDeltaAdjustment` takes a hook through a session of messages, requests
for the time and timers, with one budget of retries for all of them.  `HookSession.Next` states it
as a protocol over what can be observed of one hook, without timers, fields or slots.

`hook_sessions` is the refinement: hooks that are called only when they are free each follow their
session, whatever the others do, and every message of a session carries the URL and the payload of
the call.  A hook called at any other time has no such guarantee: the slot that is running clears
`currentUrl` when its callback returns, and a second message replaces `pendingReply`.
-/

namespace RestApiOut

namespace Wh

open Transition

variable {P : WebHookPlatform} {κ : Type}

/-- What a `send` was asked to deliver. -/
structure Job (P : WebHookPlatform) where
  url : P.Url
  payload : Bytes

/-- Where a hook is in its session, with what is left of its retries.  A session that only adjusts
the time has no job. -/
inductive HookSession (P : WebHookPlatform)
  | idle
  /-- About to send, or waiting for the timer that will. -/
  | posting (retries : Nat) (job : Job P)
  | onMessage (r : ReplyId) (retries : Nat) (job : Job P)
  /-- About to ask for the time, or waiting for the timer that will. -/
  | asking (retries : Nat) (job : Option (Job P))
  | onTime (r : ReplyId) (retries : Nat) (job : Option (Job P))
  /-- A document has been reported, and its text is still to be. -/
  | reporting (receivedData : Bytes)

def HookObservation.concerns (k : κ) : HookObservation P κ → Prop
  | .sent j _ _ | .forced j | .message j _ _ | .timestamp j _ _ | .retry j _
  | .jsonResponseReceived j _ | .responseReceived j _ | .failedToSend j _
  | .timeDeltaUpdated j _ _ => j = k

/-- The protocol of the hook `k`, given its secret and the results that have arrived. -/
inductive HookSession.Next (k : κ) (secret : Bytes) (arrived : ReplyId → Option ReplyResult) :
    HookSession P → HookObservation P κ → HookSession P → Prop
  | other {p : HookSession P} {o : HookObservation P κ} (unconcerned : ¬ o.concerns k) :
      Next k secret arrived p o p
  | send {url : P.Url} {payload : Bytes} :
      Next k secret arrived .idle (.sent k url payload)
        (.posting P.maximumNumberRetries ⟨url, payload⟩)
  | force : Next k secret arrived .idle (.forced k) (.asking P.maximumNumberRetries none)
  | message {r : ReplyId} {n tick : Nat} {delta : Int64} {job : Job P} {key : Bytes}
      (signed : signingKey secret (P.dateTime tick delta) hmacBlockLength = some key) :
      Next k secret arrived (.posting n job)
        (.message k r (messageRequest job.url job.payload key)) (.onMessage r n job)
  | timestamp {r : ReplyId} {n tick : Nat} {job : Option (Job P)} {url : P.Url}
      {timestampSecret : Bytes} :
      Next k secret arrived (.asking n job)
        (.timestamp k r (timeRequest P url timestampSecret (P.currentMSecs tick)))
        (.onTime r n job)
  | json {r : ReplyId} {n : Nat} {job : Job P} {result : ReplyResult} {document : P.Document}
      (answer : arrived r = some result) (clean : result.error = .noError)
      (parsed : P.fromJson result.body = some document) :
      Next k secret arrived (.onMessage r n job) (.jsonResponseReceived k document)
        (.reporting result.body)
  | report {receivedData : Bytes} :
      Next k secret arrived (.reporting receivedData) (.responseReceived k receivedData) .idle
  | text {r : ReplyId} {n : Nat} {job : Job P} {result : ReplyResult}
      (answer : arrived r = some result) (clean : result.error = .noError)
      (unparsed : P.fromJson result.body = none) :
      Next k secret arrived (.onMessage r n job) (.responseReceived k result.body) .idle
  | deny {r : ReplyId} {n : Nat} {job : Job P} {result : ReplyResult}
      (answer : arrived r = some result) (denied : result.error = contentAccessDenied)
      (left : 0 < n) :
      Next k secret arrived (.onMessage r (n + 1) job) (.retry k r) (.asking n (some job))
  | again {r : ReplyId} {n : Nat} {job : Job P} {result : ReplyResult}
      (answer : arrived r = some result) (failed : result.error ≠ .noError)
      (plain : ¬ (result.error = contentAccessDenied ∧ 0 < n)) :
      Next k secret arrived (.onMessage r (n + 1) job) (.retry k r) (.posting n job)
  | fail {r : ReplyId} {job : Job P} {result : ReplyResult} (answer : arrived r = some result)
      (failed : result.error ≠ .noError) :
      Next k secret arrived (.onMessage r 0 job) (.failedToSend k (errorCode result.error)) .idle
  | resume {r : ReplyId} {n : Nat} {job : Job P} {result : ReplyResult} {correction : Int64}
      (answer : arrived r = some result) (clean : result.error = .noError)
      (parsed : P.parseLongLong result.body = some correction)
      (waits : P.isEmpty job.url = false) :
      Next k secret arrived (.onTime r n (some job)) (.timeDeltaUpdated k correction true)
        (.posting n job)
  | adjusted {r : ReplyId} {n : Nat} {job : Option (Job P)} {result : ReplyResult}
      {correction : Int64} (answer : arrived r = some result) (clean : result.error = .noError)
      (parsed : P.parseLongLong result.body = some correction)
      (nothing : ∀ j ∈ job, P.isEmpty j.url = true) :
      Next k secret arrived (.onTime r n job) (.timeDeltaUpdated k correction false) .idle
  | unreadable {r : ReplyId} {n : Nat} {job : Option (Job P)} {result : ReplyResult}
      (answer : arrived r = some result) (clean : result.error = .noError)
      (unparsed : P.parseLongLong result.body = none) :
      Next k secret arrived (.onTime r n job) (.failedToSend k (errorCode protocolFailure)) .idle
  | askAgain {r : ReplyId} {n : Nat} {job : Option (Job P)} {result : ReplyResult}
      (answer : arrived r = some result) (failed : result.error ≠ .noError) :
      Next k secret arrived (.onTime r (n + 1) job) (.retry k r) (.asking n job)
  | failTime {r : ReplyId} {job : Option (Job P)} {result : ReplyResult}
      (answer : arrived r = some result) (failed : result.error ≠ .noError) :
      Next k secret arrived (.onTime r 0 job) (.failedToSend k (errorCode result.error)) .idle

/-! ## What a session means for the fields -/

/-- The callback of `k` that is running and returns to its slot. -/
inductive Callback
  | jsonResponse (receivedData : Bytes)
  | response
  | failed
  | timeDeltaUpdated
deriving DecidableEq

def HookControl.callback [DecidableEq κ] (k : κ) : HookControl κ → Option Callback
  | .jsonResponse j receivedData => if j = k then some (.jsonResponse receivedData) else none
  | .response j => if j = k then some .response else none
  | .failed j => if j = k then some .failed else none
  | .timeDeltaUpdated j => if j = k then some .timeDeltaUpdated else none
  | .loop | .unreadable _ | .spinning => none

/-- The reply a hook waits for, and which of its timers run. -/
def WebHook.waits (x : WebHook P) : Option ReplyId × Bool × Bool :=
  (x.pendingReply, x.resendTimer, x.timeDeltaTimer)

/-- The fields hold the job; without one there is no URL to send to. -/
def WebHook.Carries (x : WebHook P) : Option (Job P) → Prop
  | some job => x.currentUrl = job.url ∧ x.currentPayload = job.payload
  | none => P.isEmpty x.currentUrl = true

namespace Hooks

variable {s s' u : Hooks P κ} {j k : κ} {r : ReplyId} {p q : HookSession P}

/-- The protocol of `k` with the results the network has stored so far. -/
def session (s : Hooks P κ) (k : κ) : HookSession P → HookObservation P κ → HookSession P → Prop :=
  HookSession.Next k (s.hook k).currentSecret fun r => (s.network.reply r).result

variable [DecidableEq κ]

def InSession (s : Hooks P κ) (k : κ) : HookSession P → Prop
  | .idle => (s.hook k).waits = (none, false, false) ∧
      (∀ receivedData, s.control.callback k ≠ some (.jsonResponse receivedData)) ∧
      (s.control.callback k = some .timeDeltaUpdated → P.isEmpty (s.hook k).currentUrl = true)
  | .posting n job => (s.hook k).remainingRetries = n ∧ (s.hook k).Carries (some job) ∧
      ((s.hook k).waits = (none, true, false) ∧ s.control.callback k = none ∨
        (s.hook k).waits = (none, false, false) ∧
          s.control.callback k = some .timeDeltaUpdated ∧ P.isEmpty job.url = false)
  | .onMessage r n job => (s.hook k).remainingRetries = n ∧ (s.hook k).Carries (some job) ∧
      (s.hook k).waits = (some r, false, false) ∧ s.control.callback k = none ∧
      s.network.receiver r = some (.handler (k, .messageResponseReceived))
  | .asking n job => (s.hook k).remainingRetries = n ∧ (s.hook k).Carries job ∧
      (s.hook k).waits = (none, false, true) ∧ s.control.callback k = none
  | .onTime r n job => (s.hook k).remainingRetries = n ∧ (s.hook k).Carries job ∧
      (s.hook k).waits = (some r, false, false) ∧ s.control.callback k = none ∧
      s.network.receiver r = some (.handler (k, .timestampReplyReceived))
  | .reporting receivedData => (s.hook k).waits = (none, false, false) ∧
      s.control.callback k = some (.jsonResponse receivedData)

/-- The hook can be called: it waits for nothing, and no slot of its is running. -/
def Free (s : Hooks P κ) (k : κ) : Prop :=
  (s.hook k).waits = (none, false, false) ∧ s.control.callback k = none

/-- A hook is called only when it is free. -/
def Serial (s : Hooks P κ) : HookEvent P κ → Prop
  | .send k _ _ | .forceTimeDeltaAdjustment k => s.Free k
  | .setTimestampSecret _ | .setTimestampUrl _ | .setTimeDelta _ | .ret | .resendTimeout _
  | .timeDeltaTimeout _ | .arrive _ _ | .finish _ | .destroyReply _ => True

instance (s : Hooks P κ) (k : κ) : Decidable (s.Free k) :=
  inferInstanceAs (Decidable (_ ∧ _))

instance (s : Hooks P κ) : ∀ e, Decidable (Serial s e)
  | .send k _ _ | .forceTimeDeltaAdjustment k => inferInstanceAs (Decidable (s.Free k))
  | .setTimestampSecret _ | .setTimestampUrl _ | .setTimeDelta _ | .ret | .resendTimeout _
  | .timeDeltaTimeout _ | .arrive _ _ | .finish _ | .destroyReply _ => isTrue trivial

/-! ## The protocol of a hook grows -/

omit [DecidableEq κ] in
/-- The secrets and the results that have arrived stay what they are. -/
structure Keeps (s s' : Hooks P κ) : Prop where
  secret : ∀ k, (s'.hook k).currentSecret = (s.hook k).currentSecret
  result : ∀ r result, (s.network.reply r).result = some result →
    (s'.network.reply r).result = some result

omit [DecidableEq κ] in
theorem Keeps.trans (first : s.Keeps u) (second : u.Keeps s') : s.Keeps s' where
  secret k := (second.secret k).trans (first.secret k)
  result r result stored := second.result r result (first.result r result stored)

omit [DecidableEq κ] in
theorem Keeps.of_frame (hook : s'.hook = s.hook) (network : s'.network = s.network) :
    s.Keeps s' where
  secret k := by rw [hook]
  result r result stored := by rwa [network]

theorem keeps_setHook (s : Hooks P κ) (k : κ) {x : WebHook P}
    (same : x.currentSecret = (s.hook k).currentSecret) : s.Keeps (s.setHook k x) where
  secret j := by
    rcases eq_or_ne j k with rfl | other
    · rw [hook_setHook_self, same]
    · rw [hook_setHook_of_ne s x other]
  result _ _ stored := stored

theorem keeps_posted (s : Hooks P κ) (k : κ) (slot : Slot) (o : HookObservation P κ) :
    s.Keeps (s.posted k slot o) where
  secret j := by
    rcases eq_or_ne j k with rfl | other
    · rw [hook_posted_self]
    · rw [hook_posted_of_ne s slot o other]
  result _ _ stored := (Network.reply_result_post _).trans stored

theorem keeps_doSend (s : Hooks P κ) (k : κ) : s.Keeps (s.doSend k) := by
  rcases doSend_cases s k with ⟨-, spins⟩ | ⟨key, -, sends⟩
  · rw [spins]
    exact .of_frame rfl rfl
  · rw [sends]
    exact keeps_posted s k _ _

theorem keeps_read (s : Hooks P κ) (k : κ) (r : ReplyId) : s.Keeps (s.read k r) where
  secret j := by
    rcases eq_or_ne j k with rfl | other
    · rw [hook_read_self]
    · rw [hook_read_of_ne s r other]
  result _ _ stored := Network.reply_result_deleteLater.trans stored

theorem keeps_retryLater (s : Hooks P κ) (k : κ) (r : ReplyId) (resend : Bool) :
    s.Keeps (s.retryLater k r resend) :=
  (keeps_setHook s k (by rfl)).trans (.of_frame rfl rfl)

theorem Answered.keeps {slot : Slot} (answered : s.Answered k r slot s') : s.Keeps s' := by
  cases answered with
  | json | text | updated | unreadable | fail => exact (keeps_read s k r).trans (.of_frame rfl rfl)
  | deny | again | askAgain => exact (keeps_read s k r).trans (keeps_retryLater _ k r _)

theorem Move.keeps {e : HookEvent P κ} (move : s.Move e s') : s.Keeps s' := by
  cases move with
  | @send k url document =>
      have noted : s.Keeps (s.note (.sent k url (P.toJson document))) := .of_frame rfl rfl
      exact (noted.trans (keeps_setHook _ k (by rfl))).trans (keeps_doSend _ k)
  | @force k =>
      have noted : s.Keeps (s.note (.forced k)) := .of_frame rfl rfl
      exact (noted.trans (keeps_setHook _ k (by rfl))).trans (keeps_posted _ k _ _)
  | configure _ network hook => exact .of_frame hook network
  | report | leave => exact .of_frame rfl rfl
  | @clear k | @resend k => exact (keeps_setHook s k (by rfl)).trans (.of_frame rfl rfl)
  | @resendTimeout k => exact (keeps_setHook s k (by rfl)).trans (keeps_doSend _ k)
  | @timeDeltaTimeout k => exact (keeps_setHook s k (by rfl)).trans (keeps_posted _ k _ _)
  | @arrive r result live first =>
      exact ⟨fun _ => rfl, fun q other stored =>
        Network.stored_arrive (s.network.live_lt r live) first result stored⟩
  | finish _ _ _ _ answered => exact answered.keeps

omit [DecidableEq κ] in
theorem Keeps.session_grow {o : HookObservation P κ} (keeps : s.Keeps s')
    (allowed : s.session k p o q) : s'.session k p o q := by
  unfold session at allowed ⊢
  rw [keeps.secret]
  cases allowed with
  | other unconcerned => exact .other unconcerned
  | send => exact .send
  | force => exact .force
  | message signed => exact .message signed
  | timestamp => exact .timestamp
  | json answer clean parsed => exact .json (keeps.result _ _ answer) clean parsed
  | report => exact .report
  | text answer clean unparsed => exact .text (keeps.result _ _ answer) clean unparsed
  | deny answer denied left => exact .deny (keeps.result _ _ answer) denied left
  | again answer failed plain => exact .again (keeps.result _ _ answer) failed plain
  | fail answer failed => exact .fail (keeps.result _ _ answer) failed
  | resume answer clean parsed waits =>
      exact .resume (keeps.result _ _ answer) clean parsed waits
  | adjusted answer clean parsed nothing =>
      exact .adjusted (keeps.result _ _ answer) clean parsed nothing
  | unreadable answer clean unparsed =>
      exact .unreadable (keeps.result _ _ answer) clean unparsed
  | askAgain answer failed => exact .askAgain (keeps.result _ _ answer) failed
  | failTime answer failed => exact .failTime (keeps.result _ _ answer) failed

/-! ## Where a session is -/

omit [DecidableEq κ] in
theorem waits_eq {x : WebHook P} {pending : Option ReplyId} {resend time : Bool}
    (waits : x.waits = (pending, resend, time)) :
    x.pendingReply = pending ∧ x.resendTimer = resend ∧ x.timeDeltaTimer = time := by
  simpa [WebHook.waits] using waits

omit [DecidableEq κ] in
theorem carries_of_eq {x y : WebHook P} {job : Option (Job P)} (carries : y.Carries job)
    (url : x.currentUrl = y.currentUrl) (payload : x.currentPayload = y.currentPayload) :
    x.Carries job := by
  cases job with
  | none => exact (congrArg P.isEmpty url).trans carries
  | some job => exact ⟨url.trans carries.1, payload.trans carries.2⟩

/-- The session reaches what happens on the way from `s` to `s'`. -/
def Advances (s s' : Hooks P κ) (k : κ) (p : HookSession P) : Prop :=
  ∃ new q, s'.trace = new ++ s.trace ∧ Follows (s'.session k) p new q ∧
    (s'.control ≠ .spinning → s'.InSession k q)

theorem Advances.after {o : HookObservation P κ} (rest : u.Advances s' k q)
    (shown : u.trace = o :: s.trace) (allowed : s'.session k p o q) : s.Advances s' k p := by
  obtain ⟨new, last, emitted, follows, there⟩ := rest
  refine ⟨new ++ [o], last, ?_, .append (.cons .nil allowed) follows, there⟩
  rw [emitted, shown, List.append_assoc]
  rfl

/-- Nothing of the hook `k` happens on the way from `s` to `s'`. -/
structure Spares (s s' : Hooks P κ) (k : κ) : Prop where
  trace : ∃ new, s'.trace = new ++ s.trace ∧ ∀ o ∈ new, ¬ o.concerns k
  hook : s'.hook k = s.hook k
  callback : s'.control ≠ .spinning → s'.control.callback k = s.control.callback k
  receiver : ∀ r ∈ s.network.live, s'.network.receiver r = s.network.receiver r

theorem InSession.of_frame (here : s.InSession k p) (hook : s'.hook k = s.hook k)
    (callback : s'.control.callback k = s.control.callback k)
    (receiver : ∀ r, (s.hook k).pendingReply = some r →
      s'.network.receiver r = s.network.receiver r) : s'.InSession k p := by
  cases p with
  | idle | posting | asking | reporting => simpa only [InSession, hook, callback] using here
  | onMessage r n job =>
      obtain ⟨retries, carries, waits, called, connected⟩ := here
      rw [InSession, hook, callback, receiver r (congrArg Prod.fst waits)]
      exact ⟨retries, carries, waits, called, connected⟩
  | onTime r n job =>
      obtain ⟨retries, carries, waits, called, connected⟩ := here
      rw [InSession, hook, callback, receiver r (congrArg Prod.fst waits)]
      exact ⟨retries, carries, waits, called, connected⟩

theorem Held.advances (held : s.Held) (here : s.InSession k p) (spares : s.Spares s' k) :
    s.Advances s' k p := by
  obtain ⟨new, emitted, unconcerned⟩ := spares.trace
  refine ⟨new, p, emitted, .skip fun o member => .other (unconcerned o member), fun running => ?_⟩
  exact here.of_frame spares.hook (spares.callback running) fun r pending =>
    spares.receiver r (held.live k r pending).1

/-- A hook that is free has no session. -/
theorem InSession.idle_of_free (here : s.InSession k p) (free : s.Free k) : p = .idle := by
  obtain ⟨nothing, uncalled⟩ := free
  cases p with
  | idle => rfl
  | posting n job =>
      rcases here.2.2 with ⟨waits, -⟩ | ⟨-, called, -⟩
      · cases nothing.symm.trans waits
      · cases uncalled.symm.trans called
  | onMessage r n job => cases nothing.symm.trans here.2.2.1
  | asking n job => cases nothing.symm.trans here.2.2.1
  | onTime r n job => cases nothing.symm.trans here.2.2.1
  | reporting receivedData => cases uncalled.symm.trans here.2

theorem InSession.posting_of_timer (here : s.InSession k p)
    (timer : (s.hook k).resendTimer = true) : ∃ n job, p = .posting n job := by
  have second {a : Option ReplyId} {b : Bool} (waits : (s.hook k).waits = (a, false, b)) :
      False := by
    cases timer.symm.trans (congrArg (fun x => x.2.1) waits)
  cases p with
  | idle => exact (second here.1).elim
  | posting n job => exact ⟨n, job, rfl⟩
  | onMessage r n job | asking n job | onTime r n job => exact (second here.2.2.1).elim
  | reporting receivedData => exact (second here.1).elim

theorem InSession.asking_of_timer (here : s.InSession k p)
    (timer : (s.hook k).timeDeltaTimer = true) : ∃ n job, p = .asking n job := by
  have third {a : Option ReplyId} {b : Bool} (waits : (s.hook k).waits = (a, b, false)) :
      False := by
    cases timer.symm.trans (congrArg (fun x => x.2.2) waits)
  cases p with
  | idle => exact (third here.1).elim
  | posting n job =>
      rcases here.2.2 with ⟨waits, -⟩ | ⟨waits, -⟩
      · exact (third waits).elim
      · exact (third waits).elim
  | asking n job => exact ⟨n, job, rfl⟩
  | onMessage r n job | onTime r n job => exact (third here.2.2.1).elim
  | reporting receivedData => exact (third here.1).elim

/-- A reply that is waited for is connected to the slot of the session. -/
theorem InSession.of_pending {slot : Slot} (here : s.InSession k p)
    (own : (s.hook k).pendingReply = some r)
    (receiver : s.network.receiver r = some (.handler (k, slot))) :
    match slot with
    | .messageResponseReceived => ∃ n job, p = .onMessage r n job
    | .timestampReplyReceived => ∃ n job, p = .onTime r n job := by
  have waiting {a : Option ReplyId} {b : Bool × Bool} (waits : (s.hook k).waits = (a, b)) :
      a = some r := (congrArg Prod.fst waits).symm.trans own
  cases p with
  | idle => cases waiting here.1
  | posting n job =>
      rcases here.2.2 with ⟨waits, -⟩ | ⟨waits, -⟩
      · cases waiting waits
      · cases waiting waits
  | asking n job => cases waiting here.2.2.1
  | onMessage q n job =>
      obtain ⟨-, -, waits, -, connected⟩ := here
      cases waiting waits
      cases receiver.symm.trans connected
      exact ⟨n, job, rfl⟩
  | onTime q n job =>
      obtain ⟨-, -, waits, -, connected⟩ := here
      cases waiting waits
      cases receiver.symm.trans connected
      exact ⟨n, job, rfl⟩
  | reporting receivedData => cases waiting here.1

/-- A hook whose callback is running waits for nothing, and the callback says where it is. -/
theorem InSession.of_callback {called : Callback} (here : s.InSession k p)
    (running : s.control.callback k = some called) :
    (s.hook k).waits = (none, false, false) ∧
      match called with
      | .jsonResponse receivedData => p = .reporting receivedData
      | .response | .failed => p = .idle
      | .timeDeltaUpdated => p = .idle ∧ P.isEmpty (s.hook k).currentUrl = true ∨
          ∃ n job, p = .posting n job ∧ P.isEmpty (s.hook k).currentUrl = false := by
  cases p with
  | idle =>
      refine ⟨here.1, ?_⟩
      cases called with
      | jsonResponse receivedData => exact absurd running (here.2.1 receivedData)
      | response | failed => rfl
      | timeDeltaUpdated => exact .inl ⟨rfl, here.2.2 running⟩
  | posting n job =>
      obtain ⟨-, carries, ⟨-, uncalled⟩ | ⟨waits, called', somewhere⟩⟩ := here
      · cases running.symm.trans uncalled
      · cases running.symm.trans called'
        rw [← carries.1] at somewhere
        exact ⟨waits, .inr ⟨n, job, rfl, somewhere⟩⟩
  | asking n job => cases running.symm.trans here.2.2.2
  | onMessage r n job | onTime r n job => cases running.symm.trans here.2.2.2.1
  | reporting receivedData =>
      cases running.symm.trans here.2
      exact ⟨here.1, rfl⟩

/-! ## Replies on the wire -/

theorem Held.setHook (held : s.Held) {x : WebHook P}
    (same : x.pendingReply = (s.hook k).pendingReply) : (s.setHook k x).Held := by
  refine held.of_frame rfl fun j => ?_
  rcases eq_or_ne j k with rfl | other
  · rw [hook_setHook_self, same]
  · rw [hook_setHook_of_ne s x other]

theorem Answered.held {slot : Slot} (answered : s.Answered k r slot s') (held : s.Held)
    (own : (s.hook k).pendingReply = some r) : s'.Held := by
  have read := held.read own
  cases answered with
  | json | text | updated | unreadable | fail => exact read.of_frame rfl fun _ => rfl
  | deny | again | askAgain => exact (read.setHook (by rfl)).of_frame rfl fun _ => rfl

/-- A timer runs only while nothing is on the wire. -/
theorem InSession.no_reply_of_timer (here : s.InSession k p)
    (timer : (s.hook k).resendTimer = true ∨ (s.hook k).timeDeltaTimer = true) :
    (s.hook k).pendingReply = none := by
  rcases timer with resend | time
  · obtain ⟨n, job, rfl⟩ := here.posting_of_timer resend
    rcases here.2.2 with ⟨waits, -⟩ | ⟨waits, -⟩
    · exact congrArg Prod.fst waits
    · exact congrArg Prod.fst waits
  · obtain ⟨n, job, rfl⟩ := here.asking_of_timer time
    exact congrArg Prod.fst here.2.2.1

/-- Every step of hooks in their sessions keeps the replies held. -/
theorem Held.step {e : HookEvent P κ} (held : s.Held)
    (sessions : s.control ≠ .spinning → ∀ k, ∃ p, s.InSession k p) (serial : Serial s e)
    (move : s.Move e s') : s'.Held := by
  cases move with
  | @send k url document =>
      have sent : (s.note (.sent k url (P.toJson document))).Held := held.of_frame rfl fun _ => rfl
      refine (sent.setHook (by rfl)).doSend ?_
      rw [hook_setHook_self]
      exact congrArg Prod.fst serial.1
  | @force k =>
      have forced : (s.note (.forced k)).Held := held.of_frame rfl fun _ => rfl
      refine (forced.setHook (by rfl)).posted ?_ _ _
      rw [hook_setHook_self]
      exact congrArg Prod.fst serial.1
  | configure _ network hook => exact held.of_frame network fun _ => by rw [hook]
  | report | leave => exact held.of_frame rfl fun _ => rfl
  | clear | resend => exact (held.setHook (by rfl)).of_frame rfl fun _ => rfl
  | @resendTimeout k loop timer =>
      obtain ⟨p, here⟩ := sessions (by simp [loop]) k
      refine (held.setHook (by rfl)).doSend ?_
      rw [hook_setHook_self]
      exact here.no_reply_of_timer (.inl timer)
  | @timeDeltaTimeout k loop timer =>
      obtain ⟨p, here⟩ := sessions (by simp [loop]) k
      refine (held.setHook (by rfl)).posted ?_ _ _
      rw [hook_setHook_self]
      exact here.no_reply_of_timer (.inr timer)
  | @arrive r result live first =>
      refine ⟨fun q on => ?_, fun k q pending => ?_⟩
      · obtain ⟨k, slot, receiver, own⟩ := held.own q on
        exact ⟨k, slot, (Network.receiver_arrive result).trans receiver, own⟩
      · obtain ⟨on, kept, slot, receiver⟩ := held.live k q pending
        exact ⟨on, (Network.discarded_arrive result).trans kept, slot,
          (Network.receiver_arrive result).trans receiver⟩
  | finish _ _ own _ answered => exact answered.held held own

/-! ## Steps that spare a hook -/

theorem Spares.after (rest : u.Spares s' k)
    (trace : ∃ new, u.trace = new ++ s.trace ∧ ∀ o ∈ new, ¬ o.concerns k)
    (hook : u.hook k = s.hook k) (network : u.network = s.network)
    (control : u.control = s.control) : s.Spares s' k where
  trace := by
    obtain ⟨later, emitted, unconcerned⟩ := rest.trace
    obtain ⟨new, shown, unconcerned'⟩ := trace
    refine ⟨later ++ new, by rw [emitted, shown, List.append_assoc], fun o member => ?_⟩
    rcases List.mem_append.mp member with first | second
    · exact unconcerned o first
    · exact unconcerned' o second
  hook := rest.hook.trans hook
  callback running := by rw [rest.callback running, control]
  receiver r live := by
    rw [← network] at live ⊢
    exact rest.receiver r live

theorem spares_posted (other : k ≠ j) (slot : Slot) {o : HookObservation P κ}
    (unconcerned : ¬ o.concerns k) : s.Spares (s.posted j slot o) k where
  trace := ⟨[o], rfl, fun _ member => List.mem_singleton.mp member ▸ unconcerned⟩
  hook := hook_posted_of_ne s slot o other
  callback _ := rfl
  receiver r live := by
    have old : r ≠ s.network.next := by
      rintro rfl
      exact Network.next_notMem_live live
    exact (Network.receiver_post _).trans (if_neg old)

theorem spares_doSend (s : Hooks P κ) (other : k ≠ j) : s.Spares (s.doSend j) k := by
  rcases doSend_cases s j with ⟨-, spins⟩ | ⟨key, -, sends⟩
  · rw [spins]
    exact ⟨⟨[], rfl, by simp⟩, rfl, fun running => absurd rfl running, fun _ _ => rfl⟩
  · rw [sends]
    exact spares_posted other _ (Ne.symm other)

theorem spares_doTimestampAdjustment (s : Hooks P κ) (other : k ≠ j) :
    s.Spares (s.doTimestampAdjustment j) k :=
  spares_posted other _ (o := .timestamp j s.network.next s.timestampRequest) (Ne.symm other)

theorem Answered.spares {slot : Slot} (answered : s.Answered j r slot s')
    (loop : s.control = .loop) (other : k ≠ j) : s.Spares s' k := by
  have uncalled : s.control.callback k = none := by rw [loop]; rfl
  have mine : j ≠ k := Ne.symm other
  have untouched : (s.read j r).hook k = s.hook k := hook_read_of_ne s r other
  have connected : ∀ q, (s.read j r).network.receiver q = s.network.receiver q :=
    fun q => Network.receiver_deleteLater
  have single {o : HookObservation P κ} (unconcerned : ¬ o.concerns k) :
      ∀ q ∈ [o], ¬ q.concerns k := fun q member => List.mem_singleton.mp member ▸ unconcerned
  cases answered with
  | json | text | updated | fail =>
      exact ⟨⟨[_], rfl, single mine⟩, untouched, fun _ => (if_neg mine).trans uncalled.symm,
        fun q _ => connected q⟩
  | unreadable =>
      exact ⟨⟨[_], rfl, single mine⟩, untouched, fun _ => uncalled.symm, fun q _ => connected q⟩
  | deny | again | askAgain =>
      exact ⟨⟨[_], rfl, single mine⟩, (hook_setHook_of_ne _ _ other).trans untouched,
        fun _ => rfl, fun q _ => connected q⟩

/-! ## Steps of a hook's own session -/

theorem waits_posted (s : Hooks P κ) (k : κ) (slot : Slot) (o : HookObservation P κ) :
    ((s.posted k slot o).hook k).waits = (some s.network.next, (s.hook k).waits.2) := by
  rw [hook_posted_self]
  rfl

theorem receiver_posted (s : Hooks P κ) (k : κ) (slot : Slot) (o : HookObservation P κ) :
    (s.posted k slot o).network.receiver s.network.next = some (.handler (k, slot)) :=
  (Network.receiver_post _).trans (if_pos rfl)

theorem advances_doSend {n : Nat} {job : Job P} (retries : (s.hook k).remainingRetries = n)
    (carries : (s.hook k).Carries (some job)) (waits : (s.hook k).waits = (none, false, false))
    (uncalled : s.control.callback k = none) : s.Advances (s.doSend k) k (.posting n job) := by
  rcases doSend_cases s k with ⟨-, spins⟩ | ⟨key, signed, sends⟩
  · rw [spins]
    exact ⟨[], _, rfl, .nil, fun running => absurd rfl running⟩
  · rw [sends, carries.1, carries.2]
    refine ⟨[_], .onMessage s.network.next n job, rfl, .cons .nil ?_, fun _ => ?_⟩
    · unfold session
      rw [hook_posted_self]
      exact .message signed
    · refine ⟨?_, ?_, ?_, uncalled, receiver_posted s k _ _⟩
      · rw [hook_posted_self]
        exact retries
      · rw [hook_posted_self]
        exact carries
      · rw [waits_posted, waits]

theorem advances_doTimestampAdjustment {n : Nat} {job : Option (Job P)}
    (retries : (s.hook k).remainingRetries = n) (carries : (s.hook k).Carries job)
    (waits : (s.hook k).waits = (none, false, false)) (uncalled : s.control.callback k = none) :
    s.Advances (s.doTimestampAdjustment k) k (.asking n job) := by
  rw [doTimestampAdjustment_eq]
  refine ⟨[_], .onTime s.network.next n job, rfl, .cons .nil .timestamp, fun _ => ?_⟩
  refine ⟨?_, ?_, ?_, uncalled, receiver_posted s k _ _⟩
  · rw [hook_posted_self]
    exact retries
  · rw [hook_posted_self]
    exact carries_of_eq carries rfl rfl
  · rw [waits_posted, waits]

theorem waits_read (s : Hooks P κ) (k : κ) (r : ReplyId) :
    ((s.read k r).hook k).waits = (none, (s.hook k).waits.2) := by
  rw [hook_read_self]
  rfl

theorem hook_retryLater_self (s : Hooks P κ) (k : κ) (r : ReplyId) (resend : Bool) :
    (s.retryLater k r resend).hook k =
      { s.hook k with
        remainingRetries := (s.hook k).remainingRetries - 1
        resendTimer := (s.hook k).resendTimer || resend
        timeDeltaTimer := (s.hook k).timeDeltaTimer || !resend } :=
  Function.update_self _ _ _

/-- A retry of a hook that waits for nothing else starts one timer. -/
theorem waits_retryLater (waits : (s.hook k).waits = (none, false, false)) (r : ReplyId)
    (resend : Bool) : ((s.retryLater k r resend).hook k).waits = (none, resend, !resend) := by
  obtain ⟨nothing, off, off'⟩ := waits_eq waits
  rw [hook_retryLater_self, WebHook.waits, nothing, off, off', Bool.false_or, Bool.false_or]

/-- A hook at the end of its session may still be in its last callback. -/
theorem inSession_idle {called : Option Callback} (waits : (s.hook k).waits = (none, false, false))
    (running : s.control.callback k = called)
    (last : called = none ∨ called = some .response ∨ called = some .failed) :
    s.InSession k .idle := by
  refine ⟨waits, fun receivedData called' => ?_, fun called' => ?_⟩
  · rcases last with rfl | rfl | rfl
    · cases running.symm.trans called'
    · cases running.symm.trans called'
    · cases running.symm.trans called'
  · rcases last with rfl | rfl | rfl
    · cases running.symm.trans called'
    · cases running.symm.trans called'
    · cases running.symm.trans called'

/-- A slot takes the session of its hook on, by what the reply carries. -/
theorem Answered.advances {slot : Slot} (answered : s.Answered k r slot s')
    (here : s.InSession k p) (answer : (s.network.reply r).result = some (s.network.result r))
    (own : (s.hook k).pendingReply = some r)
    (receiver : s.network.receiver r = some (.handler (k, slot))) : s.Advances s' k p := by
  have stored := answered.keeps.result _ _ answer
  have session := here.of_pending own receiver
  have nothing : (s.hook k).waits = (some r, false, false) →
      ((s.read k r).hook k).waits = (none, false, false) := fun waits => by
    rw [waits_read, waits]
  cases answered with
  | json clean parsed =>
      obtain ⟨n, job, rfl⟩ := session
      obtain ⟨-, -, waits, -, -⟩ := here
      exact ⟨[_], .reporting _, rfl, .cons .nil (.json stored clean parsed),
        fun _ => ⟨nothing waits, if_pos rfl⟩⟩
  | text clean unparsed =>
      obtain ⟨n, job, rfl⟩ := session
      obtain ⟨-, -, waits, -, -⟩ := here
      exact ⟨[_], .idle, rfl, .cons .nil (.text stored clean unparsed),
        fun _ => inSession_idle (nothing waits) (if_pos rfl) (.inr (.inl rfl))⟩
  | deny denied left =>
      obtain ⟨n, job, rfl⟩ := session
      obtain ⟨retries, carries, waits, uncalled, -⟩ := here
      rw [retries] at left
      obtain ⟨m, rfl⟩ : ∃ m, n = m + 1 := Nat.exists_eq_succ_of_ne_zero (by omega)
      refine ⟨[_], .asking m (some job), rfl, .cons .nil (.deny stored denied left),
        fun _ => ⟨?_, ?_, waits_retryLater (nothing waits) r false, uncalled⟩⟩
      · rw [hook_retryLater_self, hook_read_self, retries, Nat.add_sub_cancel]
      · rw [hook_retryLater_self, hook_read_self]
        exact carries
  | again failed left plain =>
      obtain ⟨n, job, rfl⟩ := session
      obtain ⟨retries, carries, waits, uncalled, -⟩ := here
      rw [retries] at left plain
      obtain ⟨m, rfl⟩ : ∃ m, n = m + 1 := Nat.exists_eq_succ_of_ne_zero (Nat.ne_of_gt left)
      refine ⟨[_], .posting m job, rfl, .cons .nil (.again stored failed plain),
        fun _ => ⟨?_, ?_, .inl ⟨waits_retryLater (nothing waits) r true, uncalled⟩⟩⟩
      · rw [hook_retryLater_self, hook_read_self, retries, Nat.add_sub_cancel]
      · rw [hook_retryLater_self, hook_read_self]
        exact carries
  | @updated correction clean parsed =>
      obtain ⟨n, job, rfl⟩ := session
      obtain ⟨retries, carries, waits, -, -⟩ := here
      cases empty : P.isEmpty (s.hook k).currentUrl with
      | true =>
          have nowhere : ∀ j ∈ job, P.isEmpty j.url = true := by
            rintro j rfl
            rw [← carries.1]
            exact empty
          refine ⟨[_], .idle, rfl, .cons .nil (.adjusted stored clean parsed nowhere),
            fun _ => ⟨nothing waits, fun receivedData called => ?_, fun _ => ?_⟩⟩
          · cases (if_pos rfl).symm.trans called
          · rw [← empty]
            exact congrArg (fun x => P.isEmpty x.currentUrl) (hook_read_self s k r)
      | false =>
          cases job with
          | none => cases empty.symm.trans carries
          | some job =>
              have somewhere : P.isEmpty job.url = false := by
                rw [← carries.1]
                exact empty
              refine ⟨[_], .posting n job, rfl, .cons .nil (.resume stored clean parsed somewhere),
                fun _ => ⟨?_, ?_, .inr ⟨nothing waits, if_pos rfl, somewhere⟩⟩⟩
              · exact (congrArg WebHook.remainingRetries (hook_read_self s k r)).trans retries
              · have url := congrArg WebHook.currentUrl (hook_read_self s k r)
                have payload := congrArg WebHook.currentPayload (hook_read_self s k r)
                exact carries_of_eq carries url payload
  | unreadable clean unparsed =>
      obtain ⟨n, job, rfl⟩ := session
      obtain ⟨-, -, waits, -, -⟩ := here
      exact ⟨[_], .idle, rfl, .cons .nil (.unreadable stored clean unparsed),
        fun _ => inSession_idle (nothing waits) rfl (.inl rfl)⟩
  | askAgain failed left =>
      obtain ⟨n, job, rfl⟩ := session
      obtain ⟨retries, carries, waits, uncalled, -⟩ := here
      rw [retries] at left
      obtain ⟨m, rfl⟩ : ∃ m, n = m + 1 := Nat.exists_eq_succ_of_ne_zero (Nat.ne_of_gt left)
      refine ⟨[_], .asking m job, rfl, .cons .nil (.askAgain stored failed),
        fun _ => ⟨?_, ?_, waits_retryLater (nothing waits) r false, uncalled⟩⟩
      · rw [hook_retryLater_self, hook_read_self, retries, Nat.add_sub_cancel]
      · rw [hook_retryLater_self, hook_read_self]
        exact carries_of_eq carries rfl rfl
  | fail failed spent =>
      cases slot with
      | messageResponseReceived =>
          obtain ⟨n, job, rfl⟩ := session
          obtain ⟨retries, -, waits, -, -⟩ := here
          cases retries.symm.trans spent
          exact ⟨[_], .idle, rfl, .cons .nil (.fail stored failed),
            fun _ => inSession_idle (nothing waits) (if_pos rfl) (.inr (.inr rfl))⟩
      | timestampReplyReceived =>
          obtain ⟨n, job, rfl⟩ := session
          obtain ⟨retries, -, waits, -, -⟩ := here
          cases retries.symm.trans spent
          exact ⟨[_], .idle, rfl, .cons .nil (.failTime stored failed),
            fun _ => inSession_idle (nothing waits) (if_pos rfl) (.inr (.inr rfl))⟩

/-- The last callback of a session returns. -/
theorem advances_clear (here : s.InSession k p)
    (called : s.control = .response k ∨ s.control = .failed k) :
    s.Advances { s.setHook k { s.hook k with currentUrl := P.emptyUrl } with control := .loop }
      k p := by
  obtain ⟨waits, rfl⟩ : (s.hook k).waits = (none, false, false) ∧ p = .idle := by
    rcases called with called | called
    · exact here.of_callback (by rw [called]; exact if_pos rfl : _ = some Callback.response)
    · exact here.of_callback (by rw [called]; exact if_pos rfl : _ = some Callback.failed)
  refine ⟨[], .idle, rfl, .nil, fun _ => inSession_idle ?_ rfl (.inl rfl)⟩
  exact (congrArg WebHook.waits (hook_setHook_self s k _)).trans waits

/-- The time is adjusted: the timer of a message that waits for it is started. -/
theorem advances_resend (here : s.InSession k p) (called : s.control = .timeDeltaUpdated k)
    (waiting : P.isEmpty (s.hook k).currentUrl = false) :
    s.Advances { s.setHook k { s.hook k with resendTimer := true } with control := .loop } k p := by
  have running : s.control.callback k = some .timeDeltaUpdated := by
    rw [called]
    exact if_pos rfl
  obtain ⟨waits, ⟨-, empty⟩ | ⟨n, job, rfl, -⟩⟩ := here.of_callback running
  · cases waiting.symm.trans empty
  · obtain ⟨retries, carries, -⟩ := here
    obtain ⟨nothing, -, off⟩ := waits_eq waits
    have same := hook_setHook_self s k { s.hook k with resendTimer := true }
    have url := congrArg WebHook.currentUrl same
    have payload := congrArg WebHook.currentPayload same
    refine ⟨[], .posting n job, rfl, .nil, fun _ => ⟨?_, ?_, .inl ⟨?_, rfl⟩⟩⟩
    · exact (congrArg WebHook.remainingRetries same).trans retries
    · exact carries_of_eq carries url payload
    · exact (congrArg WebHook.waits same).trans (by rw [WebHook.waits, nothing, off])

/-- A callback returns after which nothing is left to do. -/
theorem advances_leave (here : s.InSession k p) (called : s.control = .unreadable j ∨
      s.control = .timeDeltaUpdated j ∧ P.isEmpty (s.hook j).currentUrl = true) :
    s.Advances { s with control := .loop } k p := by
  refine ⟨[], p, rfl, .nil, fun _ => ?_⟩
  by_cases running : s.control.callback k = none
  · exact here.of_frame rfl running.symm fun _ _ => rfl
  · rcases called with called | ⟨called, empty⟩
    · exact absurd (by rw [called]; rfl) running
    · have mine : j = k := by
        by_contra other
        exact running (by rw [called]; exact if_neg other)
      subst mine
      have running : s.control.callback j = some .timeDeltaUpdated := by
        rw [called]
        exact if_pos rfl
      obtain ⟨waits, ⟨rfl, -⟩ | ⟨n, job, -, somewhere⟩⟩ := here.of_callback running
      · exact inSession_idle waits rfl (.inl rfl)
      · cases empty.symm.trans somewhere

theorem advances_resendTimeout (here : s.InSession k p) (timer : (s.hook k).resendTimer = true) :
    s.Advances ((s.setHook k { s.hook k with resendTimer := false }).doSend k) k p := by
  obtain ⟨n, job, rfl⟩ := here.posting_of_timer timer
  obtain ⟨retries, carries, ⟨waits, uncalled⟩ | ⟨waits, -⟩⟩ := here
  · obtain ⟨nothing, -, off⟩ := waits_eq waits
    refine (advances_doSend ?_ ?_ ?_ uncalled : (s.setHook k _).Advances _ k _)
    · rw [hook_setHook_self]
      exact retries
    · rw [hook_setHook_self]
      exact carries
    · rw [hook_setHook_self, WebHook.waits, nothing, off]
  · cases timer.symm.trans (waits_eq waits).2.1

theorem advances_timeDeltaTimeout (here : s.InSession k p)
    (timer : (s.hook k).timeDeltaTimer = true) :
    s.Advances ((s.setHook k { s.hook k with timeDeltaTimer := false }).doTimestampAdjustment k)
      k p := by
  obtain ⟨n, job, rfl⟩ := here.asking_of_timer timer
  obtain ⟨retries, carries, waits, uncalled⟩ := here
  obtain ⟨nothing, off, -⟩ := waits_eq waits
  refine (advances_doTimestampAdjustment ?_ ?_ ?_ uncalled : (s.setHook k _).Advances _ k _)
  · rw [hook_setHook_self]
    exact retries
  · rw [hook_setHook_self]
    exact carries_of_eq carries rfl rfl
  · rw [hook_setHook_self, WebHook.waits, nothing, off]

/-- **One step of the program is a stretch of every hook's session.** -/
theorem Move.advances {e : HookEvent P κ} (move : s.Move e s') (held : s.Held)
    (serial : Serial s e) (here : s.InSession k p) : s.Advances s' k p := by
  cases move with
  | @send j url document =>
      rcases eq_or_ne k j with rfl | other
      · cases here.idle_of_free serial
        refine .after (advances_doSend ?_ ?_ ?_ serial.2) (by rfl) .send
        · rw [hook_setHook_self]
        · rw [hook_setHook_self]
          exact ⟨rfl, rfl⟩
        · rw [hook_setHook_self]
          exact serial.1
      · refine held.advances here ((spares_doSend _ other).after ⟨[_], rfl, ?_⟩
          (hook_setHook_of_ne _ _ other) rfl rfl)
        exact fun o member => List.mem_singleton.mp member ▸ Ne.symm other
  | @force j =>
      rcases eq_or_ne k j with rfl | other
      · cases here.idle_of_free serial
        refine .after (advances_doTimestampAdjustment ?_ ?_ ?_ serial.2) (by rfl) .force
        · rw [hook_setHook_self]
        · rw [hook_setHook_self]
          exact P.isEmpty_emptyUrl
        · rw [hook_setHook_self]
          exact serial.1
      · refine held.advances here ((spares_doTimestampAdjustment _ other).after ⟨[_], rfl, ?_⟩
          (hook_setHook_of_ne _ _ other) rfl rfl)
        exact fun o member => List.mem_singleton.mp member ▸ Ne.symm other
  | configure _ network hook control trace =>
      exact held.advances here ⟨⟨[], trace, by simp⟩, by rw [hook], fun _ => by rw [control],
        fun _ _ => by rw [network]⟩
  | @report j receivedData called =>
      rcases eq_or_ne k j with rfl | other
      · have running : s.control.callback k = some (.jsonResponse receivedData) := by
          rw [called]
          exact if_pos rfl
        obtain ⟨nothing, rfl⟩ := here.of_callback running
        exact ⟨[_], .idle, rfl, .cons .nil .report,
          fun _ => inSession_idle nothing (if_pos rfl) (.inr (.inl rfl))⟩
      · refine held.advances here ⟨⟨[_], rfl, ?_⟩, rfl, fun _ => ?_, fun _ _ => rfl⟩
        · exact fun o member => List.mem_singleton.mp member ▸ Ne.symm other
        · rw [called]
          exact (if_neg (Ne.symm other)).trans (if_neg (Ne.symm other)).symm
  | @clear j called =>
      rcases eq_or_ne k j with rfl | other
      · exact advances_clear here called
      · refine held.advances here ⟨⟨[], rfl, by simp⟩, hook_setHook_of_ne s _ other, fun _ => ?_,
          fun _ _ => rfl⟩
        rcases called with called | called
        · rw [called]
          exact (if_neg (Ne.symm other)).symm
        · rw [called]
          exact (if_neg (Ne.symm other)).symm
  | leave called => exact advances_leave here called
  | @resend j called waits =>
      rcases eq_or_ne k j with rfl | other
      · exact advances_resend here called waits
      · refine held.advances here ⟨⟨[], rfl, by simp⟩, hook_setHook_of_ne s _ other, fun _ => ?_,
          fun _ _ => rfl⟩
        rw [called]
        exact (if_neg (Ne.symm other)).symm
  | @resendTimeout j loop timer =>
      rcases eq_or_ne k j with rfl | other
      · exact advances_resendTimeout here timer
      · exact held.advances here ((spares_doSend _ other).after ⟨[], rfl, by simp⟩
          (hook_setHook_of_ne _ _ other) rfl rfl)
  | @timeDeltaTimeout j loop timer =>
      rcases eq_or_ne k j with rfl | other
      · exact advances_timeDeltaTimeout here timer
      · exact held.advances here ((spares_doTimestampAdjustment _ other).after ⟨[], rfl, by simp⟩
          (hook_setHook_of_ne _ _ other) rfl rfl)
  | arrive =>
      exact held.advances here ⟨⟨[], rfl, by simp⟩, rfl, fun _ => rfl,
        fun _ _ => Network.receiver_arrive _⟩
  | @finish j slot r _ loop answer own receiver answered =>
      rcases eq_or_ne k j with rfl | other
      · exact answered.advances here answer own receiver
      · exact held.advances here (answered.spares loop other)

/-- A thread in a key that is never filled does nothing more. -/
theorem Move.stuck {e : HookEvent P κ} (move : s.Move e s')
    (spinning : s.control = .spinning) : s'.control = .spinning ∧ s'.trace = s.trace := by
  cases move with
  | send running | force running => exact absurd spinning running
  | configure _ network hook control trace => exact ⟨control.trans spinning, trace⟩
  | report called | resend called => cases spinning.symm.trans called
  | clear called =>
      rcases called with called | called
      · cases spinning.symm.trans called
      · cases spinning.symm.trans called
  | leave called =>
      rcases called with called | ⟨called, -⟩
      · cases spinning.symm.trans called
      · cases spinning.symm.trans called
  | resendTimeout loop | timeDeltaTimeout loop | finish loop => cases spinning.symm.trans loop
  | arrive => exact ⟨spinning, rfl⟩

/-- Every hook is in a session, and the replies on the wire are held. -/
structure Ordered (s : Hooks P κ) : Prop where
  held : s.Held
  sessions : s.control ≠ .spinning → ∀ k, ∃ p, s.InSession k p

theorem Initial.inSession (init : s.Initial) (k : κ) : s.InSession k .idle := by
  refine inSession_idle ?_ (by rw [init.control]; rfl) (.inl rfl)
  rw [WebHook.waits, init.pending, (init.timers k).1, (init.timers k).2]

theorem Initial.ordered (init : s.Initial) : s.Ordered :=
  ⟨init.held, fun _ k => ⟨.idle, init.inSession k⟩⟩

/-- A step takes every session on, unless the thread spins. -/
theorem Ordered.advances {e : HookEvent P κ} (ordered : s.Ordered) (serial : Serial s e)
    (stepped : s.step e = some s') (here : s.control ≠ .spinning → s.InSession k p) :
    s.Advances s' k p := by
  have move := ordered.held.move stepped
  by_cases spinning : s.control = .spinning
  · obtain ⟨spins, silent⟩ := move.stuck spinning
    exact ⟨[], p, silent, .nil, fun running => absurd spins running⟩
  · exact move.advances ordered.held serial (here spinning)

theorem Ordered.step {e : HookEvent P κ} (ordered : s.Ordered) (serial : Serial s e)
    (stepped : s.step e = some s') : s'.Ordered where
  held := ordered.held.step ordered.sessions serial (ordered.held.move stepped)
  sessions running k := by
    have before : s.control ≠ .spinning := fun spinning =>
      running ((ordered.held.move stepped).stuck spinning).1
    obtain ⟨p, here⟩ := ordered.sessions before k
    obtain ⟨-, q, -, -, there⟩ := ordered.advances serial stepped fun _ => here
    exact ⟨q, there running⟩

/-- A run takes a session on from where it is. -/
theorem Ordered.follows {es : List (HookEvent P κ)} (ordered : s.Ordered)
    (run : Run Hooks.step Serial s es s') (before : Follows (s.session k) .idle s.trace p)
    (here : s.control ≠ .spinning → s.InSession k p) :
    ∃ q, Follows (s'.session k) .idle s'.trace q ∧ (s'.control ≠ .spinning → s'.InSession k q) := by
  have simulate : ∀ {u v : Hooks P κ} {e : HookEvent P κ} {p : HookSession P}, u.Ordered →
      Serial u e → u.step e = some v → (u.control ≠ .spinning → u.InSession k p) →
      ∃ new q, v.trace = new ++ u.trace ∧ Follows (v.session k) p new q ∧
        (v.control ≠ .spinning → v.InSession k q) :=
    fun ordered serial stepped here => ordered.advances serial stepped here
  refine run.follows Ordered.step ?_ simulate ordered before here
  intro u e v ordered _ stepped p o q allowed
  exact (ordered.held.move stepped).keeps.session_grow allowed

omit [DecidableEq κ] in
theorem Initial.follows (init : s.Initial) (k : κ) : Follows (s.session k) .idle s.trace .idle := by
  rw [init.trace]
  exact .nil

/-- **Serial use refines the session.** Of hooks that are called only when they are free, each
follows its protocol, whatever the others do and in whatever order replies and timers come: one
budget of retries pays for its messages and its requests for the time, every message carries the
document of the call, and what is reported is what the reply carried.  Its fields say where in the
session it is.  Whatever step comes next, what it sends is of its moment (`Dated`). -/
theorem hook_sessions {es : List (HookEvent P κ)} (init : s.Initial)
    (run : Run step Serial s es s') :
    (∀ k, ∃ p, Follows (s'.session k) .idle s'.trace p ∧
      (s'.control ≠ .spinning → s'.InSession k p)) ∧
      ∀ e t, s'.step e = some t → ∃ new, t.trace = new ++ s'.trace ∧
        (∀ o ∈ new, s'.Dated t o) ∧
        (t.globalTimeDelta = s'.globalTimeDelta ∨
          (∃ j correction again, .timeDeltaUpdated j correction again ∈ new) ∨
          ∃ delta, e = .setTimeDelta delta) := by
  have ordered : s'.Ordered := run.invariant Ordered.step init.ordered
  exact ⟨fun k => init.ordered.follows run (init.follows k) fun _ => init.inSession k,
    fun e t stepped => ordered.held.dated stepped⟩

/-- A message that is denied, the time asked for and adjusted, the message sent again and answered,
while the other hook runs out of retries.  The next message has the time delta of the correction. -/
theorem hook_sessions_through_denial :
    ∃ s', Run step Serial Sample.hooks
        ([Sample.sends true 5] ++ Sample.replies 0 Sample.denied ++
          [Sample.sends false 7, .timeDeltaTimeout true] ++
          Sample.replies 2 (Sample.correction 60000) ++ [.ret, .resendTimeout true] ++
          Sample.replies 1 RestApiOut.Sample.refused ++ [.resendTimeout false] ++
          Sample.replies 3 (RestApiOut.Sample.answered 4) ++ [.ret, .ret]) s' ∧
      s'.globalTimeDelta = 60000 ∧
      (∀ k, ∃ p, Follows (s'.session k) .idle s'.trace p ∧
        (s'.control ≠ .spinning → s'.InSession k p)) ∧
      ∃ t new, s'.step (Sample.sends true 6) = some t ∧ t.trace = new ++ s'.trace ∧
        ∀ o ∈ new, s'.Dated t o :=
  have run := run_of_isSome (by decide)
  have sessions := hook_sessions Sample.hooks_initial run
  have dated := sessions.2 (Sample.sends true 6) _ rfl
  ⟨_, run, by decide, sessions.1, _, dated.choose, rfl, dated.choose_spec.1, dated.choose_spec.2.1⟩

end Hooks

end Wh

end RestApiOut
