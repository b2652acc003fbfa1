import RestApiOut.Effect

/-!
# What a step can do

The inversion of `World.step`: each way through the source is a constructor of `World.Action`, with
the guards it passes and the world it leaves.  `World.Inv` is what holds in every reachable world
whatever the application and the network do; `World.step_action` uses it to rule out the ways that
are never taken (a null `pendingReply` in the server's slot, a held mutex in the event loop).
-/

namespace RestApiOut

open Transition

variable {P : Platform} {ι : Type}

/-- The entries the notification loop that is running has still to call. -/
def Control.rest : Control ι → List ι
  | .updating rest | .failing rest | .failed _ rest => rest
  | .loop | .response _ | .signal | .deadlock => []

/-- Two server states that differ only in what the plain setters change. -/
structure Server.Reconfigured (s s' : Server P ι) : Prop where
  secret : s'.currentDefaultSecret = s.currentDefaultSecret
  mutex : s'.requestMutex = s.requestMutex
  pending : s'.pendingReply = s.pendingReply
  retries : s'.retriesRemaining = s.retriesRemaining
  waiting : s'.waitingRestApis = s.waitingRestApis

namespace World

/-- The law of one server and its handlers on one thread.

The mutex is held exactly in the notification loops.  While no update is running nobody waits.  The
one live time-delta reply is the server's `pendingReply` until a loop runs; the live replies of a
handler that have not been discarded are its `pendingReply`. -/
structure Inv (w : World P ι) : Prop where
  mutex : w.server.requestMutex = w.control.locked
  waiting : w.server.pendingReply = none → w.server.waitingRestApis = []
  notifying : w.control.locked = true → w.server.pendingReply ≠ none
  rest : w.control.rest <:+ w.server.waitingRestApis
  asked : ∀ r ∈ w.network.live, w.network.receiver r = some .server →
    w.server.pendingReply = some r ∧ w.control.locked = false
  outstanding : ∀ r, w.server.pendingReply = some r → w.control.locked = false →
    r ∈ w.network.live ∧ w.network.receiver r = some .server ∧ w.network.discarded r = false
  held : ∀ h r, (w.handler h).pendingReply = some r →
    r ∈ w.network.live ∧ w.network.receiver r = some (.handler h) ∧
      w.network.discarded r = false
  owner : ∀ h, ∀ r ∈ w.network.live, w.network.receiver r = some (.handler h) →
    w.network.discarded r = false → (w.handler h).pendingReply = some r

/-- The event loop is about to deliver the `finished` signal of `r` to `slot`. -/
structure Finishing (w : World P ι) (r : ReplyId) (slot : Receiver ι) : Prop where
  loop : w.control = .loop
  live : r ∈ w.network.live
  arrived : w.network.arrived r = true
  receiver : w.network.receiver r = some slot

theorem Finishing.free {w : World P ι} {r : ReplyId} {slot : Receiver ι}
    (finishing : w.Finishing r slot) : w.control.locked = false := by
  rw [finishing.loop]
  rfl

theorem Finishing.running {w : World P ι} {r : ReplyId} {slot : Receiver ι}
    (finishing : w.Finishing r slot) : w.control ≠ .deadlock := by
  simp [finishing.loop]

/-- No mutex is held in a callback that reports a response or that follows an update. -/
theorem free_of_callback {w : World P ι}
    (callback : (∃ h, w.control = .response h) ∨ w.control = .signal) :
    w.control.locked = false := by
  rcases callback with ⟨h, control⟩ | control
  · rw [control]
    rfl
  · rw [control]
    rfl

/-- A reply that makes the handler ask for a new time delta instead of reporting it. -/
def Rejected (w : World P ι) (h : ι) (q : ReplyId) : Prop :=
  (w.network.result q).error = .authenticationRequired ∧ 0 < (w.handler h).retriesRemaining

instance (w : World P ι) (h : ι) (q : ReplyId) : Decidable (w.Rejected h q) :=
  inferInstanceAs (Decidable (_ ∧ _))

variable [DecidableEq ι]

inductive Action (w : World P ι) : Event P ι → World P ι → Prop
  | postNow {h : ι} {endpoint : String} {content : Content P}
      (user : w.control.user = true) (free : w.control.locked = false)
      (idle : w.server.pendingReply = none) (kind : (w.handler h).kind = content.kind) :
      Action w (.call (.post h endpoint content))
        ((w.beginPost h endpoint content).timestampUpdated h)
  | postDeferred {h : ι} {endpoint : String} {content : Content P} {r : ReplyId}
      (user : w.control.user = true) (free : w.control.locked = false)
      (pending : w.server.pendingReply = some r) (kind : (w.handler h).kind = content.kind) :
      Action w (.call (.post h endpoint content)) ((w.beginPost h endpoint content).append h)
  | postBlocked {h k : ι} {endpoint : String} {content : Content P} {rest : List ι}
      (inLoop : w.control = .failed k rest) (kind : (w.handler h).kind = content.kind) :
      Action w (.call (.post h endpoint content)) (w.beginPost h endpoint content).block
  | setSecret {h : ι} {secret : Bytes} (long : secret.length = secretLength)
      (user : w.control.user = true) :
      Action w (.call (.setSecret h secret)) (w.setSecret h secret)
  | setDefaultSecret {secret : Bytes} (long : secret.length = secretLength)
      (user : w.control.user = true) :
      Action w (.call (.setDefaultSecret secret)) (w.setDefaultSecret secret)
  | configure {c : Call P ι} {s : Server P ι} (plain : Server.Reconfigured w.server s)
      (noPost : ∀ h endpoint content, c ≠ .post h endpoint content)
      (user : w.control.user = true) :
      Action w (.call c) { w with server := s }
  | returned (callback : (∃ h, w.control = .response h) ∨ w.control = .signal) :
      Action w .ret { w with control := .loop }
  | resumed {h : ι} {rest : List ι} (callback : w.control = .failed h rest) :
      Action w .ret { w with control := .failing rest }
  | notifyUpdated {h : ι} {rest : List ι} (inLoop : w.control = .updating (h :: rest)) :
      Action w .next
        { (w.note (.notified h true)).timestampUpdated h with control := .updating rest }
  | endUpdated (inLoop : w.control = .updating []) :
      Action w .next { w.withCore (w.toCore.release true) with control := .signal }
  | notifyFailed {h : ι} {rest : List ι} (inLoop : w.control = .failing (h :: rest)) :
      Action w .next
        { (w.note (.notified h false)).timestampUpdateFailed h with control := .failed h rest }
  | endFailed (inLoop : w.control = .failing []) :
      Action w .next { w.withCore (w.toCore.release false) with control := .signal }
  | arrived {r : ReplyId} {result : ReplyResult} (live : r ∈ w.network.live)
      (first : w.network.arrived r = false) :
      Action w (.arrive r result) { w with network := w.network.arrive r result }
  | destroyed {r : ReplyId} (loop : w.control = .loop) (live : r ∈ w.network.live)
      (discarded : w.network.discarded r = true) :
      Action w (.destroyReply r) { w with network := w.network.retire r }
  | slotNull {h : ι} {r : ReplyId} (finishing : w.Finishing r (.handler h))
      (null : (w.handler h).pendingReply = none) :
      Action w (.finish r) (w.enterSlot h r)
  | slotOutcome {h : ι} {r q : ReplyId} {o : Outcome P} (finishing : w.Finishing r (.handler h))
      (pending : (w.handler h).pendingReply = some q) (final : ¬ w.Rejected h q) :
      Action w (.finish r) (((w.enterSlot h r).takePending h q).respond h q o)
  | slotRetry {h : ι} {r q : ReplyId} (finishing : w.Finishing r (.handler h))
      (pending : (w.handler h).pendingReply = some q) (rejected : w.Rejected h q) :
      Action w (.finish r) ((((w.enterSlot h r).takePending h q).spendRetry h q).enlist h)
  | serverRetry {r : ReplyId} (finishing : w.Finishing r .server)
      (refused : replyDelta P (w.network.result r) = none)
      (left : 0 < w.server.retriesRemaining) :
      Action w (.finish r)
        (((w.enterServer r).discard r).ask (w.server.retriesRemaining - 1))
  | serverFailed {r : ReplyId} (finishing : w.Finishing r .server)
      (refused : replyDelta P (w.network.result r) = none)
      (left : w.server.retriesRemaining = 0) :
      Action w (.finish r) (((w.enterServer r).discard r).startLoop false)
  | serverUpdated {r : ReplyId} {delta : Int64} (finishing : w.Finishing r .server)
      (accepted : replyDelta P (w.network.result r) = some delta) :
      Action w (.finish r) (((w.enterServer r).accept r delta).startLoop true)

/-! ## The inversion -/

omit [DecidableEq ι] in
theorem Inv.free_of_loop {w : World P ι} (inv : w.Inv) (loop : w.control = .loop) :
    w.server.requestMutex = false := by
  rw [inv.mutex, loop]
  rfl

omit [DecidableEq ι] in
/-- Application code runs with the mutex held only inside the failure loop. -/
theorem failed_of_user_locked {c : Control ι} (user : c.user = true)
    (locked : c.locked = true) : ∃ k rest, c = .failed k rest := by
  cases c with
  | failed k rest => exact ⟨k, rest, rfl⟩
  | loop | response | signal => cases locked
  | updating | failing | deadlock => cases user

theorem postWith_eq (w : World P ι) (h : ι) (endpoint : String) (content : Content P) :
    (w.note (.posted h w.server.currentSchemeAndHost endpoint content)).postWith h
        (content.url w.server.currentSchemeAndHost endpoint) content.payload =
      match (w.beginPost h endpoint content).toCore.checkTimestamp h with
      | none => (w.beginPost h endpoint content).block
      | some (true, c) => ((w.beginPost h endpoint content).withCore c).timestampUpdated h
      | some (false, c) => (w.beginPost h endpoint content).withCore c :=
  rfl

/-- A `post` sends, waits or blocks. -/
theorem post_action {w w' : World P ι} (inv : w.Inv) {h : ι} {endpoint : String}
    {content : Content P} (user : w.control.user = true)
    (posted : w.post h endpoint content = some w') :
    Action w (.call (.post h endpoint content)) w' := by
  rw [post_eq] at posted
  split at posted
  · rename_i kind
    cases posted
    rw [postWith_eq]
    have mutex : (w.beginPost h endpoint content).server.requestMutex = w.control.locked := by
      rw [server_beginPost, inv.mutex]
    cases locked : w.control.locked with
    | true =>
        obtain ⟨k, rest, inLoop⟩ := failed_of_user_locked user locked
        rw [Core.checkTimestamp_of_held (mutex.trans locked)]
        exact .postBlocked inLoop kind
    | false =>
        cases pending : w.server.pendingReply with
        | none =>
            rw [Core.checkTimestamp_of_idle (mutex.trans locked) pending]
            exact .postNow user locked pending kind
        | some r =>
            rw [Core.checkTimestamp_of_pending (mutex.trans locked) pending]
            exact .postDeferred user locked pending kind
  · cases posted

theorem call_action {w w' : World P ι} (inv : w.Inv) {c : Call P ι}
    (user : w.control.user = true) (called : w.call c = some w') : Action w (.call c) w' := by
  cases c with
  | post h endpoint content => exact post_action inv user called
  | setSecret h secret =>
      simp only [call] at called
      split at called
      · cases called
        exact .setSecret ‹_› user
      · cases called
  | setDefaultSecret secret =>
      simp only [call] at called
      split at called
      · cases called
        exact .setDefaultSecret ‹_› user
      · cases called
  | setSchemeAndHost | setUserAgent | setTimeDeltaSlug | setTimeDelta =>
      cases called
      exact .configure ⟨rfl, rfl, rfl, rfl, rfl⟩ (fun _ _ _ => nofun) user

theorem return_action {w w' : World P ι} (returned : w.return_ = some w') :
    Action w .ret w' := by
  unfold return_ at returned
  split at returned
  · rename_i h control
    cases returned
    exact .returned (.inl ⟨h, control⟩)
  · rename_i control
    cases returned
    exact .returned (.inr control)
  · rename_i h rest control
    cases returned
    exact .resumed control
  · cases returned

theorem iterate_action {w w' : World P ι} (iterated : w.iterate = some w') :
    Action w .next w' := by
  unfold iterate at iterated
  split at iterated
  · cases iterated
    exact .notifyUpdated ‹_›
  · cases iterated
    exact .endUpdated ‹_›
  · cases iterated
    exact .notifyFailed ‹_›
  · cases iterated
    exact .endFailed ‹_›
  · cases iterated

theorem responseReceivedWith_of_null (process : ReplyResult → Outcome P) {w : World P ι} {h : ι}
    (null : (w.handler h).pendingReply = none) : w.responseReceivedWith process h = w := by
  rw [responseReceivedWith, null]

/-- `responseReceived` in effects, when `pendingReply` is not null. -/
theorem responseReceivedWith_of_pending (process : ReplyResult → Outcome P) {w : World P ι} {h : ι}
    {q : ReplyId} (pending : (w.handler h).pendingReply = some q) :
    w.responseReceivedWith process h =
      if (w.network.result q).error = .noError then
        (w.takePending h q).respond h q (process (w.network.result q))
      else if w.Rejected h q then
        match ((w.takePending h q).spendRetry h q).toCore.updateTimeDelta h with
        | none => ((w.takePending h q).spendRetry h q).block
        | some c => ((w.takePending h q).spendRetry h q).withCore c
      else
        (w.takePending h q).respond h q (.requestFailed (w.network.result q).errorString) := by
  rw [responseReceivedWith, pending]
  rfl

/-- The slot of a handler. -/
theorem slot_action {w : World P ι} (inv : w.Inv) {h : ι} {r : ReplyId}
    (finishing : w.Finishing r (.handler h)) :
    Action w (.finish r) ((w.enterSlot h r).handlerResponseReceived h) := by
  rw [handlerResponseReceived_eq]
  cases pending : (w.handler h).pendingReply with
  | none =>
      have null : ((w.enterSlot h r).handler h).pendingReply = none := pending
      rw [responseReceivedWith_of_null _ null]
      exact .slotNull finishing pending
  | some q =>
      have reads : ((w.enterSlot h r).handler h).pendingReply = some q := pending
      rw [responseReceivedWith_of_pending _ reads]
      by_cases clean : ((w.enterSlot h r).network.result q).error = .noError
      · rw [if_pos clean]
        refine .slotOutcome finishing pending fun rejected => ?_
        have refused : (w.network.result q).error = .authenticationRequired := rejected.1
        have noError : (w.network.result q).error = .noError := clean
        rw [refused] at noError
        cases noError
      · rw [if_neg clean]
        by_cases rejected : (w.enterSlot h r).Rejected h q
        · have free : (((w.enterSlot h r).takePending h q).spendRetry h q).server.requestMutex =
              false := inv.free_of_loop finishing.loop
          rw [if_pos rejected, Core.updateTimeDelta_of_free free]
          exact .slotRetry finishing pending rejected
        · rw [if_neg rejected]
          exact .slotOutcome finishing pending rejected

/-- The slot of the server. -/
theorem server_action {w : World P ι} (inv : w.Inv) {r : ReplyId}
    (finishing : w.Finishing r .server) :
    Action w (.finish r) (w.enterServer r).serverResponseReceived := by
  have free : (w.enterServer r).server.requestMutex = false := inv.free_of_loop finishing.loop
  have pending : (w.enterServer r).server.pendingReply = some r :=
    (inv.asked r finishing.live finishing.receiver).1
  have same : (w.enterServer r).network.result r = w.network.result r := rfl
  rw [serverResponseReceived, Core.responseReceivedUnlocked_eq pending, same]
  cases parsed : replyDelta P (w.network.result r) with
  | some delta =>
      have free' : ((w.enterServer r).toCore.accept r delta).server.requestMutex = false := free
      dsimp only
      rw [Core.beginNotify_of_free free']
      exact .serverUpdated finishing parsed
  | none =>
      dsimp only
      by_cases left : 0 < (w.enterServer r).server.retriesRemaining
      · rw [if_pos left]
        exact .serverRetry finishing parsed left
      · have free' : ((w.enterServer r).toCore.discard r).server.requestMutex = false := free
        rw [if_neg left]
        dsimp only
        rw [Core.beginNotify_of_free free']
        exact .serverFailed finishing parsed (Nat.eq_zero_of_not_pos left)

/-- **Every step is an action.** -/
theorem step_action {w w' : World P ι} {e : Event P ι} (inv : w.Inv)
    (stepped : w.step e = some w') : Action w e w' := by
  cases e with
  | call c =>
      simp only [step] at stepped
      split at stepped
      · exact call_action inv ‹_› stepped
      · cases stepped
  | ret => exact return_action stepped
  | next => exact iterate_action stepped
  | arrive r result =>
      simp only [step] at stepped
      split at stepped
      · rename_i ready
        cases stepped
        exact .arrived ready.1 ready.2
      · cases stepped
  | destroyReply r =>
      simp only [step] at stepped
      split at stepped
      · rename_i ready
        cases stepped
        exact .destroyed ready.1 ready.2.1 ready.2.2
      · cases stepped
  | finish r =>
      simp only [step] at stepped
      split at stepped
      · rename_i ready
        unfold deliver at stepped
        split at stepped
        · cases stepped
        · rename_i receiver
          cases stepped
          exact server_action inv ⟨ready.1, ready.2.1, ready.2.2, receiver⟩
        · rename_i h receiver
          cases stepped
          exact slot_action inv ⟨ready.1, ready.2.1, ready.2.2, receiver⟩
      · cases stepped

end World

end RestApiOut
