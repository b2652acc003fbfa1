import RestApiOut.WebHook.Model

/-!
# What one step of the hooks does

`Held` says that the replies on the wire are exactly those the hooks wait for.  Where it holds, a
slot reads the reply that finished, nothing is destroyed before it finishes, and `Move` lists what a
step can do.
-/

namespace RestApiOut

namespace Wh

variable {P : WebHookPlatform} {κ : Type}

/-- One of the static setters. -/
def HookEvent.IsSetter : HookEvent P κ → Prop
  | .setTimestampSecret _ | .setTimestampUrl _ | .setTimeDelta _ => True
  | .send _ _ _ | .forceTimeDeltaAdjustment _ | .ret | .resendTimeout _ | .timeDeltaTimeout _
  | .arrive _ _ | .finish _ | .destroyReply _ => False

namespace Hooks

variable {s s' u : Hooks P κ} {j k : κ} {r q : ReplyId}

/-- In serial use the replies on the wire are those the hooks wait for. -/
structure Held (s : Hooks P κ) : Prop where
  own : ∀ r ∈ s.network.live, ∃ k slot, s.network.receiver r = some (.handler (k, slot)) ∧
    (s.hook k).pendingReply = some r
  live : ∀ k r, (s.hook k).pendingReply = some r → r ∈ s.network.live ∧
    s.network.discarded r = false ∧ ∃ slot, s.network.receiver r = some (.handler (k, slot))

variable [DecidableEq κ]

/-! ## Requests -/

/-- A request of `k` with its reply connected to `slot`. -/
def posted (s : Hooks P κ) (k : κ) (slot : Slot) (o : HookObservation P κ) : Hooks P κ :=
  { s with
    network := s.network.post (.handler (k, slot))
    ticks := s.ticks + 1
    hook := Function.update s.hook k { s.hook k with pendingReply := some s.network.next }
    trace := o :: s.trace }

theorem hook_posted_self (s : Hooks P κ) (k : κ) (slot : Slot) (o : HookObservation P κ) :
    (s.posted k slot o).hook k = { s.hook k with pendingReply := some s.network.next } :=
  Function.update_self _ _ _

theorem hook_posted_of_ne (s : Hooks P κ) (slot : Slot) (o : HookObservation P κ) (other : j ≠ k) :
    (s.posted k slot o).hook j = s.hook j :=
  Function.update_of_ne other _ _

theorem hook_setHook_self (s : Hooks P κ) (k : κ) (x : WebHook P) : (s.setHook k x).hook k = x :=
  Function.update_self _ _ _

theorem hook_setHook_of_ne (s : Hooks P κ) (x : WebHook P) (other : j ≠ k) :
    (s.setHook k x).hook j = s.hook j :=
  Function.update_of_ne other _ _

theorem doTimestampAdjustment_eq (s : Hooks P κ) (k : κ) : s.doTimestampAdjustment k =
    s.posted k .timestampReplyReceived (.timestamp k s.network.next s.timestampRequest) :=
  rfl

/-- A message is posted, signed with the key of the moment, or the key is never filled. -/
theorem doSend_cases (s : Hooks P κ) (k : κ) :
    (signingKey (s.hook k).currentSecret (P.dateTime s.ticks s.globalTimeDelta)
        hmacBlockLength = none ∧ s.doSend k = { s with control := .spinning }) ∨
      ∃ key, signingKey (s.hook k).currentSecret (P.dateTime s.ticks s.globalTimeDelta)
          hmacBlockLength = some key ∧
        s.doSend k = s.posted k .messageResponseReceived (.message k s.network.next
          (messageRequest (s.hook k).currentUrl (s.hook k).currentPayload key)) := by
  rw [doSend]
  cases made : signingKey (s.hook k).currentSecret (P.dateTime s.ticks s.globalTimeDelta)
      hmacBlockLength with
  | none => exact .inl ⟨rfl, rfl⟩
  | some key => exact .inr ⟨key, rfl, rfl⟩

/-! ## Replies on the wire -/

omit [DecidableEq κ] in
theorem Initial.held (init : s.Initial) : s.Held where
  own r live := by
    rw [init.network] at live
    exact absurd live (Finset.notMem_empty r)
  live k r pending := by
    rw [init.pending] at pending
    cases pending

omit [DecidableEq κ] in
theorem Held.of_frame (held : s.Held) (network : s'.network = s.network)
    (pending : ∀ k, (s'.hook k).pendingReply = (s.hook k).pendingReply) : s'.Held where
  own r live := by
    rw [network] at live
    obtain ⟨k, slot, receiver, own⟩ := held.own r live
    rw [network]
    exact ⟨k, slot, receiver, (pending k).trans own⟩
  live k r own := by
    rw [pending] at own
    rw [network]
    exact held.live k r own

/-- A hook that waits for nothing posts. -/
theorem Held.posted (held : s.Held) (idle : (s.hook k).pendingReply = none) (slot : Slot)
    (o : HookObservation P κ) : (s.posted k slot o).Held where
  own r live := by
    have live' : r ∈ insert s.network.next s.network.live := live
    have receiver : (s.posted k slot o).network.receiver r =
        if r = s.network.next then some (.handler (k, slot)) else s.network.receiver r :=
      Network.receiver_post _
    rw [receiver]
    split
    · rename_i new
      exact ⟨k, slot, rfl, by rw [hook_posted_self, new]⟩
    · rename_i old
      obtain ⟨j, slot', connected, own⟩ :=
        held.own r ((Finset.mem_insert.mp live').resolve_left old)
      have other : j ≠ k := by
        rintro rfl
        rw [idle] at own
        cases own
      exact ⟨j, slot', connected, by rw [hook_posted_of_ne s slot o other, own]⟩
  live j r own := by
    have discarded : (s.posted k slot o).network.discarded r =
        if r = s.network.next then false else s.network.discarded r := Network.discarded_post _
    have receiver : (s.posted k slot o).network.receiver r =
        if r = s.network.next then some (.handler (k, slot)) else s.network.receiver r :=
      Network.receiver_post _
    rcases eq_or_ne j k with rfl | other
    · rw [hook_posted_self] at own
      cases own
      refine ⟨Finset.mem_insert_self _ _, ?_, slot, ?_⟩
      · rw [discarded, if_pos rfl]
      · rw [receiver, if_pos rfl]
    · rw [hook_posted_of_ne s slot o other] at own
      obtain ⟨live, kept, connected⟩ := held.live j r own
      have old : r ≠ s.network.next := by
        rintro rfl
        exact Network.next_notMem_live live
      rw [discarded, receiver, if_neg old, if_neg old]
      exact ⟨Finset.mem_insert_of_mem live, kept, connected⟩

theorem Held.doSend (held : s.Held) (idle : (s.hook k).pendingReply = none) :
    (s.doSend k).Held := by
  rcases doSend_cases s k with ⟨-, spins⟩ | ⟨key, -, sends⟩
  · rw [spins]
    exact held.of_frame rfl fun _ => rfl
  · rw [sends]
    exact held.posted idle _ _

/-! ## What a slot does with the reply that finished -/

/-- The reply `r` of `k` has finished and been read. -/
def read (s : Hooks P κ) (k : κ) (r : ReplyId) : Hooks P κ :=
  { s with network := s.network.retire r }.takePending k r

theorem hook_read_self (s : Hooks P κ) (k : κ) (r : ReplyId) :
    (s.read k r).hook k = { s.hook k with pendingReply := none } :=
  Function.update_self _ _ _

theorem hook_read_of_ne (s : Hooks P κ) (r : ReplyId) (other : j ≠ k) :
    (s.read k r).hook j = s.hook j :=
  Function.update_of_ne other _ _

theorem Held.read (held : s.Held) (own : (s.hook k).pendingReply = some r) :
    (s.read k r).Held where
  own q live := by
    obtain ⟨other, before⟩ := Finset.mem_erase.mp (live : q ∈ s.network.live.erase r)
    obtain ⟨j, slot, receiver, pending⟩ := held.own q before
    have elsewhere : j ≠ k := by
      rintro rfl
      exact other (Option.some.inj (pending.symm.trans own))
    refine ⟨j, slot, Network.receiver_deleteLater.trans receiver, ?_⟩
    rw [hook_read_of_ne s r elsewhere]
    exact pending
  live j q pending := by
    rcases eq_or_ne j k with rfl | elsewhere
    · rw [hook_read_self] at pending
      cases pending
    · rw [hook_read_of_ne s r elsewhere] at pending
      obtain ⟨live, kept, slot, receiver⟩ := held.live j q pending
      have other : q ≠ r := by
        rintro rfl
        obtain ⟨-, -, slot', receiver'⟩ := held.live k q own
        cases receiver.symm.trans receiver'
        exact elsewhere rfl
      refine ⟨Finset.mem_erase.mpr ⟨other, live⟩, ?_, slot, ?_⟩
      · refine Network.discarded_deleteLater.trans ?_
        rw [decide_eq_false fun same => other same.1, Bool.or_false]
        exact kept
      · exact Network.receiver_deleteLater.trans receiver

/-- The ways through the two slots, from the error and the body of the reply. -/
inductive Answered (s : Hooks P κ) (k : κ) (r : ReplyId) : Slot → Hooks P κ → Prop
  | json {document : P.Document} (clean : (s.network.result r).error = .noError)
      (parsed : P.fromJson (s.network.result r).body = some document) :
      Answered s k r .messageResponseReceived
        { (s.read k r).note (.jsonResponseReceived k document) with
          control := .jsonResponse k (s.network.result r).body }
  | text (clean : (s.network.result r).error = .noError)
      (unparsed : P.fromJson (s.network.result r).body = none) :
      Answered s k r .messageResponseReceived
        { (s.read k r).note (.responseReceived k (s.network.result r).body) with
          control := .response k }
  | deny (denied : (s.network.result r).error = contentAccessDenied)
      (left : 0 < (s.hook k).remainingRetries - 1) :
      Answered s k r .messageResponseReceived
        ((s.read k r).retryLater k r false)
  | again (failed : (s.network.result r).error ≠ .noError)
      (left : 0 < (s.hook k).remainingRetries)
      (plain : ¬ ((s.network.result r).error = contentAccessDenied ∧
        0 < (s.hook k).remainingRetries - 1)) :
      Answered s k r .messageResponseReceived
        ((s.read k r).retryLater k r true)
  | updated {correction : Int64} (clean : (s.network.result r).error = .noError)
      (parsed : P.parseLongLong (s.network.result r).body = some correction) :
      Answered s k r .timestampReplyReceived
        { (s.read k r).note (.timeDeltaUpdated k correction
            (!P.isEmpty (s.hook k).currentUrl)) with
          globalTimeDelta := correction
          control := .timeDeltaUpdated k }
  | unreadable (clean : (s.network.result r).error = .noError)
      (unparsed : P.parseLongLong (s.network.result r).body = none) :
      Answered s k r .timestampReplyReceived
        { (s.read k r).note (.failedToSend k (errorCode protocolFailure)) with
          control := .unreadable k }
  | askAgain (failed : (s.network.result r).error ≠ .noError)
      (left : 0 < (s.hook k).remainingRetries) :
      Answered s k r .timestampReplyReceived
        ((s.read k r).retryLater k r false)
  | fail {slot : Slot} (failed : (s.network.result r).error ≠ .noError)
      (spent : (s.hook k).remainingRetries = 0) :
      Answered s k r slot ((s.read k r).giveUp k (s.network.result r).error)

theorem messageResponseReceived_eq (own : (s.hook k).pendingReply = some r) :
    { s with network := s.network.retire r }.messageResponseReceived k =
      if (s.network.result r).error = .noError then
        match P.fromJson (s.network.result r).body with
        | some document =>
            { (s.read k r).note (.jsonResponseReceived k document) with
              control := .jsonResponse k (s.network.result r).body }
        | none =>
            { (s.read k r).note (.responseReceived k (s.network.result r).body) with
              control := .response k }
      else if 0 < (s.hook k).remainingRetries then
        if (s.network.result r).error = contentAccessDenied ∧
            0 < (s.hook k).remainingRetries - 1 then
          (s.read k r).retryLater k r false
        else (s.read k r).retryLater k r true
      else (s.read k r).giveUp k (s.network.result r).error := by
  have own' : (({ s with network := s.network.retire r } : Hooks P κ).hook k).pendingReply =
      some r := own
  have retries : (s.hook k).remainingRetries = ((s.read k r).hook k).remainingRetries := by
    rw [hook_read_self]
  rw [messageResponseReceived, own', retries]
  rfl

theorem timestampReplyReceived_eq (own : (s.hook k).pendingReply = some r) :
    { s with network := s.network.retire r }.timestampReplyReceived k =
      if (s.network.result r).error = .noError then
        match P.parseLongLong (s.network.result r).body with
        | some correction =>
            { (s.read k r).note (.timeDeltaUpdated k correction
                (!P.isEmpty (s.hook k).currentUrl)) with
              globalTimeDelta := correction
              control := .timeDeltaUpdated k }
        | none =>
            { (s.read k r).note (.failedToSend k (errorCode protocolFailure)) with
              control := .unreadable k }
      else if 0 < (s.hook k).remainingRetries then (s.read k r).retryLater k r false
      else (s.read k r).giveUp k (s.network.result r).error := by
  have own' : (({ s with network := s.network.retire r } : Hooks P κ).hook k).pendingReply =
      some r := own
  have retries : (s.hook k).remainingRetries = ((s.read k r).hook k).remainingRetries := by
    rw [hook_read_self]
  have url : (s.hook k).currentUrl = ((s.read k r).hook k).currentUrl := by
    rw [hook_read_self]
  rw [timestampReplyReceived, own', retries, url]
  rfl

theorem message_answered (own : (s.hook k).pendingReply = some r) :
    s.Answered k r .messageResponseReceived
      ({ s with network := s.network.retire r }.messageResponseReceived k) := by
  rw [messageResponseReceived_eq own]
  by_cases clean : (s.network.result r).error = .noError
  · rw [if_pos clean]
    cases parsed : P.fromJson (s.network.result r).body with
    | some document => exact .json clean parsed
    | none => exact .text clean parsed
  · rw [if_neg clean]
    by_cases left : 0 < (s.hook k).remainingRetries
    · rw [if_pos left]
      by_cases denied : (s.network.result r).error = contentAccessDenied ∧
          0 < (s.hook k).remainingRetries - 1
      · rw [if_pos denied]
        exact .deny denied.1 denied.2
      · rw [if_neg denied]
        exact .again clean left denied
    · rw [if_neg left]
      exact .fail clean (Nat.eq_zero_of_not_pos left)

theorem timestamp_answered (own : (s.hook k).pendingReply = some r) :
    s.Answered k r .timestampReplyReceived
      ({ s with network := s.network.retire r }.timestampReplyReceived k) := by
  rw [timestampReplyReceived_eq own]
  by_cases clean : (s.network.result r).error = .noError
  · rw [if_pos clean]
    cases parsed : P.parseLongLong (s.network.result r).body with
    | some correction => exact .updated clean parsed
    | none => exact .unreadable clean parsed
  · rw [if_neg clean]
    by_cases left : 0 < (s.hook k).remainingRetries
    · rw [if_pos left]
      exact .askAgain clean left
    · rw [if_neg left]
      exact .fail clean (Nat.eq_zero_of_not_pos left)

/-- A reply that finishes is the one its hook waits for. -/
theorem Held.answered (held : s.Held) (stepped : s.step (.finish r) = some s') :
    s.control = .loop ∧ (s.network.reply r).result = some (s.network.result r) ∧
      ∃ k slot, (s.hook k).pendingReply = some r ∧
        s.network.receiver r = some (.handler (k, slot)) ∧ s.Answered k r slot s' := by
  simp only [step] at stepped
  split at stepped
  · rename_i ready
    obtain ⟨loop, live, arrived⟩ := ready
    obtain ⟨k, slot, receiver, own⟩ := held.own r live
    refine ⟨loop, Network.stored_of_arrived arrived, k, slot, own, receiver, ?_⟩
    unfold deliver at stepped
    rw [receiver] at stepped
    cases slot with
    | messageResponseReceived =>
        cases stepped
        exact message_answered own
    | timestampReplyReceived =>
        cases stepped
        exact timestamp_answered own
  · cases stepped

/-! ## The steps -/

/-- What a step can do where the replies on the wire are held. -/
inductive Move (s : Hooks P κ) : HookEvent P κ → Hooks P κ → Prop
  | send {k : κ} {url : P.Url} {document : P.Document} (running : s.control ≠ .spinning) :
      Move s (.send k url document) (s.send k url document)
  | force {k : κ} (running : s.control ≠ .spinning) :
      Move s (.forceTimeDeltaAdjustment k) (s.forceTimeDeltaAdjustment k)
  /-- A setter changes what the hooks share. -/
  | configure {e : HookEvent P κ} {s' : Hooks P κ} (setter : e.IsSetter)
      (network : s'.network = s.network) (hook : s'.hook = s.hook)
      (control : s'.control = s.control) (trace : s'.trace = s.trace) : Move s e s'
  | report {k : κ} {receivedData : Bytes} (called : s.control = .jsonResponse k receivedData) :
      Move s .ret { s.note (.responseReceived k receivedData) with control := .response k }
  | clear {k : κ} (called : s.control = .response k ∨ s.control = .failed k) :
      Move s .ret { s.setHook k { s.hook k with currentUrl := P.emptyUrl } with control := .loop }
  | leave {k : κ} (called : s.control = .unreadable k ∨
        s.control = .timeDeltaUpdated k ∧ P.isEmpty (s.hook k).currentUrl = true) :
      Move s .ret { s with control := .loop }
  | resend {k : κ} (called : s.control = .timeDeltaUpdated k)
      (waits : P.isEmpty (s.hook k).currentUrl = false) :
      Move s .ret { s.setHook k { s.hook k with resendTimer := true } with control := .loop }
  | resendTimeout {k : κ} (loop : s.control = .loop) (timer : (s.hook k).resendTimer = true) :
      Move s (.resendTimeout k) ((s.setHook k { s.hook k with resendTimer := false }).doSend k)
  | timeDeltaTimeout {k : κ} (loop : s.control = .loop)
      (timer : (s.hook k).timeDeltaTimer = true) :
      Move s (.timeDeltaTimeout k)
        ((s.setHook k { s.hook k with timeDeltaTimer := false }).doTimestampAdjustment k)
  | arrive {r : ReplyId} {result : ReplyResult} (live : r ∈ s.network.live)
      (first : s.network.arrived r = false) :
      Move s (.arrive r result) { s with network := s.network.arrive r result }
  | finish {k : κ} {slot : Slot} {r : ReplyId} {s' : Hooks P κ} (loop : s.control = .loop)
      (answer : (s.network.reply r).result = some (s.network.result r))
      (own : (s.hook k).pendingReply = some r)
      (receiver : s.network.receiver r = some (.handler (k, slot)))
      (answered : s.Answered k r slot s') : Move s (.finish r) s'

/-- A callback that returns. -/
theorem return_move (stepped : s.return_ = some s') : s.Move .ret s' := by
  unfold return_ at stepped
  split at stepped
  · rename_i called
    cases stepped
    exact .report called
  · rename_i called
    cases stepped
    exact .clear (.inl called)
  · rename_i called
    cases stepped
    exact .clear (.inr called)
  · rename_i called
    cases stepped
    exact .leave (.inl called)
  · rename_i called
    split at stepped
    · rename_i nothing
      cases stepped
      exact .leave (.inr ⟨called, nothing⟩)
    · rename_i waits
      cases stepped
      exact .resend called (Bool.eq_false_iff.mpr waits)
  · cases stepped
  · cases stepped

theorem Held.move {e : HookEvent P κ} (held : s.Held) (stepped : s.step e = some s') :
    s.Move e s' := by
  cases e with
  | send k url document =>
      obtain ⟨running, ⟨⟩⟩ := Option.ite_none_right_eq_some.mp stepped
      exact .send running
  | forceTimeDeltaAdjustment k =>
      obtain ⟨running, ⟨⟩⟩ := Option.ite_none_right_eq_some.mp stepped
      exact .force running
  | setTimestampSecret _ | setTimestampUrl _ | setTimeDelta _ =>
      obtain ⟨-, ⟨⟩⟩ := Option.ite_none_right_eq_some.mp stepped
      exact .configure trivial rfl rfl rfl rfl
  | ret => exact return_move stepped
  | resendTimeout k =>
      obtain ⟨⟨loop, timer⟩, ⟨⟩⟩ := Option.ite_none_right_eq_some.mp stepped
      exact .resendTimeout loop timer
  | timeDeltaTimeout k =>
      obtain ⟨⟨loop, timer⟩, ⟨⟩⟩ := Option.ite_none_right_eq_some.mp stepped
      exact .timeDeltaTimeout loop timer
  | arrive r result =>
      obtain ⟨⟨live, first⟩, ⟨⟩⟩ := Option.ite_none_right_eq_some.mp stepped
      exact .arrive live first
  | finish r =>
      obtain ⟨loop, answer, k, slot, own, receiver, answered⟩ := held.answered stepped
      exact .finish loop answer own receiver answered
  | destroyReply r =>
      -- what has been discarded has been read, and is off the wire
      obtain ⟨⟨-, live, discarded⟩, -⟩ := Option.ite_none_right_eq_some.mp stepped
      obtain ⟨k, slot, -, pending⟩ := held.own r live
      rw [(held.live k r pending).2.1] at discarded
      cases discarded

end Hooks

end Wh

end RestApiOut
