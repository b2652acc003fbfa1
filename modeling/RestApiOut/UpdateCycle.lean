import RestApiOut.Answer

/-!
# Update cycles

An update cycle runs from the time-delta request `Server::updateTimeDelta` issues while none is
pending to the moment `pendingReply` is null again.  `World.answers` are the results its replies
bring, in order, and `Cycle` says what they have led to: all unacceptable so far and a retry left
for the request under way, an acceptable one at last, or all attempts spent.  The step lemma
`Cycle.step` adds one answer at a time; `cycle_takes_first_acceptable` is the account of whole
cycles.
-/

namespace RestApiOut

open Transition

variable {P : Platform} {ι : Type}

/-- The signals the server has emitted, newest first: `true` is `timeDeltaChanged`, `false` is
`timeDeltaUpdateFailed`. -/
def signals : Trace P ι → List Bool
  | [] => []
  | .released updated :: past => updated :: signals past
  | _ :: past => signals past

/-- The time delta after an event, as far as the application sets it. -/
def Event.configuredDelta (timeDelta : Int64) : Event P ι → Int64
  | .call (.setTimeDelta newTimeDelta) => newTimeDelta
  | _ => timeDelta

/-- The notification loop of `Server::responseReceived` that is running: `some true` after an
accepted time delta, `some false` after a failed update. -/
def Control.notifying : Control ι → Option Bool
  | .updating _ => some true
  | .failing _ | .failed _ _ | .deadlock => some false
  | .loop | .response _ | .signal => none

theorem Control.notifying_eq_none_iff {c : Control ι} : c.notifying = none ↔ c.locked = false := by
  cases c <;> simp [notifying, locked]

namespace World

/-- The result an event hands to the server's slot. -/
def answer (w : World P ι) : Event P ι → Option ReplyResult
  | .finish r =>
      match w.network.receiver r with
      | some .server => some (w.network.result r)
      | _ => none
  | _ => none

variable [DecidableEq ι] in
/-- The results the time-delta replies of a run bring, oldest first. -/
def answers (w : World P ι) : List (Event P ι) → List ReplyResult
  | [] => []
  | e :: es =>
      (w.answer e).toList ++
        match w.step e with
        | some w' => w'.answers es
        | none => []

/-- The time delta after some events, as far as the application sets it. -/
def configuredDelta (timeDelta : Int64) (es : List (Event P ι)) : Int64 :=
  es.foldl Event.configuredDelta timeDelta

/-- An update cycle is running. -/
def Updating (w : World P ι) (_ : Event P ι) : Prop := w.server.pendingReply ≠ none

instance (w : World P ι) (e : Event P ι) : Decidable (w.Updating e) :=
  inferInstanceAs (Decidable (_ ≠ _))

/-- What the answers of the running cycle, or of the one that has just ended, have led to.
`timeDelta` is the time delta without them, `earlier` the signals of the cycles before. -/
inductive Cycle (w : World P ι) (timeDelta : Int64) (answers : List ReplyResult)
    (earlier : List Bool) : Prop
  | asking (unacceptable : ∀ a ∈ answers, ∀ v, ¬ Acceptable P a v)
      (left : answers.length + w.server.retriesRemaining = numberRetries)
      (kept : w.server.currentTimeDelta = timeDelta)
      (running : w.server.pendingReply ≠ none) (free : w.control.notifying = none)
      (silent : signals w.trace = earlier)
  | changed {bad : List ReplyResult} {good : ReplyResult} {v : ℚ} (first : answers = bad ++ [good])
      (unacceptable : ∀ a ∈ bad, ∀ v, ¬ Acceptable P a v) (inTime : bad.length ≤ numberRetries)
      (acceptable : Acceptable P good v)
      (taken : w.server.currentTimeDelta.toInt = truncate v)
      (loop : w.server.pendingReply ≠ none → w.control.notifying = some true)
      (signal : signals w.trace =
        (if w.server.pendingReply = none then [true] else []) ++ earlier)
  | failed (unacceptable : ∀ a ∈ answers, ∀ v, ¬ Acceptable P a v)
      (spent : answers.length = 1 + numberRetries)
      (kept : w.server.currentTimeDelta = timeDelta)
      (loop : w.server.pendingReply ≠ none → w.control.notifying = some false)
      (signal : signals w.trace =
        (if w.server.pendingReply = none then [false] else []) ++ earlier)

variable {w w' : World P ι} {timeDelta : Int64} {answers : List ReplyResult} {earlier : List Bool}
  {r : ReplyId}

/-- A step that hands over no answer, emits no signal and stays where it is in the cycle. -/
theorem Cycle.of_frame (cycle : w.Cycle timeDelta answers earlier)
    (pending : w'.server.pendingReply = w.server.pendingReply)
    (retries : w'.server.retriesRemaining = w.server.retriesRemaining)
    (delta : w'.server.currentTimeDelta = w.server.currentTimeDelta)
    (notifying : w'.control.notifying = w.control.notifying)
    (silent : signals w'.trace = signals w.trace) : w'.Cycle timeDelta answers earlier := by
  cases cycle with
  | asking unacceptable left kept running free quiet =>
      rw [← retries] at left
      rw [← delta] at kept
      rw [← pending] at running
      exact .asking unacceptable left kept running (notifying.trans free) (silent.trans quiet)
  | changed first unacceptable inTime acceptable taken loop signal =>
      rw [← delta] at taken
      rw [← pending, ← notifying] at loop
      rw [← pending, ← silent] at signal
      exact .changed first unacceptable inTime acceptable taken loop signal
  | failed unacceptable spent kept loop signal =>
      rw [← delta] at kept
      rw [← pending, ← notifying] at loop
      rw [← pending, ← silent] at signal
      exact .failed unacceptable spent kept loop signal

theorem Cycle.quiet {e : Event P ι} (unanswered : w.answer e = none)
    (untouched : e.configuredDelta timeDelta = timeDelta)
    (cycle : w'.Cycle timeDelta answers earlier) :
    w'.Cycle (e.configuredDelta timeDelta) (answers ++ (w.answer e).toList) earlier := by
  rw [unanswered, untouched, Option.toList_none, List.append_nil]
  exact cycle

theorem Finishing.answer_server (finishing : w.Finishing r .server) :
    w.answer (.finish r) = some (w.network.result r) := by
  rw [answer, finishing.receiver]

theorem Finishing.answer_handler {h : ι} (finishing : w.Finishing r (.handler h)) :
    w.answer (.finish r) = none := by
  rw [answer, finishing.receiver]

/-- In the event loop a running cycle is still asking. -/
theorem Cycle.asking_of_loop (cycle : w.Cycle timeDelta answers earlier)
    (running : w.server.pendingReply ≠ none) (loop : w.control = .loop) :
    (∀ a ∈ answers, ∀ v, ¬ Acceptable P a v) ∧
      answers.length + w.server.retriesRemaining = numberRetries ∧
      w.server.currentTimeDelta = timeDelta ∧ signals w.trace = earlier := by
  cases cycle with
  | asking unacceptable left kept _ _ silent => exact ⟨unacceptable, left, kept, silent⟩
  | changed _ _ _ _ _ inLoop | failed _ _ _ inLoop =>
      have notifying := inLoop running
      rw [loop] at notifying
      cases notifying

/-- One more unacceptable answer. -/
theorem unacceptable_concat {a : ReplyResult}
    (unacceptable : ∀ a ∈ answers, ∀ v, ¬ Acceptable P a v) (refused : replyDelta P a = none) :
    ∀ b ∈ answers ++ [a], ∀ v, ¬ Acceptable P b v := by
  intro b member
  rcases List.mem_append.mp member with before | last
  · exact unacceptable b before
  · rw [List.mem_singleton.mp last]
    exact replyDelta_eq_none_iff.mp refused

/-- While the cycle runs its signal is still to come. -/
theorem unsignalled {pending : Option ReplyId} {t : Trace P ι} {updated : Bool}
    (running : pending ≠ none) (silent : signals t = earlier) :
    signals t = (if pending = none then [updated] else []) ++ earlier := by
  rw [if_neg running]
  exact silent

variable [DecidableEq ι]

theorem delta_of_call {c : Call P ι} (noPost : ∀ h endpoint content, c ≠ .post h endpoint content)
    (called : w.call c = some w') :
    w'.server.currentTimeDelta = (Event.call c).configuredDelta w.server.currentTimeDelta := by
  cases c with
  | post h endpoint content => exact absurd rfl (noPost h endpoint content)
  | setSecret | setDefaultSecret =>
      obtain ⟨-, changed⟩ := Option.ite_none_right_eq_some.mp called
      cases changed
      rfl
  | setSchemeAndHost | setUserAgent | setTimeDeltaSlug | setTimeDelta =>
      cases called
      rfl

omit [DecidableEq ι] in
/-- What the application configures between two answers. -/
theorem Cycle.configure {c : Call P ι} {s : Server P ι} (cycle : w.Cycle timeDelta answers earlier)
    (running : w.server.pendingReply ≠ none) (plain : Server.Reconfigured w.server s)
    (delta : s.currentTimeDelta = (Event.call c).configuredDelta w.server.currentTimeDelta)
    (user : w.control.user = true) :
    World.Cycle { w with server := s } ((Event.call c).configuredDelta timeDelta) answers
      earlier := by
  cases cycle with
  | asking unacceptable left kept _ free silent =>
      rw [← plain.retries] at left
      rw [kept] at delta
      rw [← plain.pending] at running
      exact .asking unacceptable left delta running free silent
  | changed _ _ _ _ _ loop =>
      have notifying := loop running
      cases control : w.control with
      | updating rest => rw [control] at user; cases user
      | loop | response | failing | failed | signal | deadlock =>
          rw [control] at notifying; cases notifying
  | failed unacceptable spent kept loop signal =>
      rw [kept] at delta
      rw [← plain.pending] at loop signal
      exact .failed unacceptable spent delta loop signal

omit [DecidableEq ι] in
/-- The end of the success loop. -/
theorem Cycle.endUpdated (cycle : w.Cycle timeDelta answers earlier)
    (running : w.server.pendingReply ≠ none) (inLoop : w.control = .updating []) :
    World.Cycle { w.withCore (w.toCore.release true) with control := .signal } timeDelta answers
      earlier := by
  cases cycle with
  | asking _ _ _ _ free => rw [inLoop] at free; cases free
  | failed _ _ _ loop =>
      have notifying := loop running
      rw [inLoop] at notifying
      cases notifying
  | changed first unacceptable inTime acceptable taken _ signal =>
      rw [if_neg running] at signal
      exact .changed first unacceptable inTime acceptable taken (fun busy => absurd rfl busy)
        (congrArg (true :: ·) signal)

omit [DecidableEq ι] in
/-- The end of the failure loop. -/
theorem Cycle.endFailed (cycle : w.Cycle timeDelta answers earlier)
    (running : w.server.pendingReply ≠ none) (inLoop : w.control = .failing []) :
    World.Cycle { w.withCore (w.toCore.release false) with control := .signal } timeDelta answers
      earlier := by
  cases cycle with
  | asking _ _ _ _ free => rw [inLoop] at free; cases free
  | changed _ _ _ _ _ loop =>
      have notifying := loop running
      rw [inLoop] at notifying
      cases notifying
  | failed unacceptable spent kept _ signal =>
      rw [if_neg running] at signal
      exact .failed unacceptable spent kept (fun busy => absurd rfl busy)
        (congrArg (false :: ·) signal)

/-- **One step of an update cycle**: at most one answer, judged as it comes. -/
theorem Cycle.step {e : Event P ι} (cycle : w.Cycle timeDelta answers earlier) (inv : w.Inv)
    (running : w.server.pendingReply ≠ none) (stepped : w.step e = some w') :
    w'.Cycle (e.configuredDelta timeDelta) (answers ++ (w.answer e).toList) earlier := by
  cases step_action inv stepped with
  | @postNow h endpoint content user free idle kind => exact absurd idle running
  | @postDeferred h endpoint content r user free pending kind =>
      exact .quiet rfl rfl (cycle.of_frame rfl rfl rfl rfl rfl)
  | @postBlocked h k endpoint content rest inLoop kind =>
      refine .quiet rfl rfl (cycle.of_frame rfl rfl rfl ?_ rfl)
      rw [inLoop]
      rfl
  | setSecret | setDefaultSecret | destroyed | arrived =>
      exact .quiet rfl rfl (cycle.of_frame rfl rfl rfl rfl rfl)
  | @configure c s plain noPost user =>
      have called : w.call c = some { w with server := s } := by
        rw [World.step, if_pos user] at stepped
        exact stepped
      have unanswered : w.answer (.call c) = none := rfl
      rw [unanswered, Option.toList_none, List.append_nil]
      exact cycle.configure running plain (delta_of_call noPost called) user
  | returned callback =>
      refine .quiet rfl rfl (cycle.of_frame rfl rfl rfl ?_ rfl)
      rw [Control.notifying_eq_none_iff.mpr (free_of_callback callback)]
      rfl
  | resumed inLoop =>
      refine .quiet rfl rfl (cycle.of_frame rfl rfl rfl ?_ rfl)
      rw [inLoop]
      rfl
  | @notifyUpdated h rest inLoop =>
      refine .quiet rfl rfl (cycle.of_frame ?_ ?_ ?_ ?_ ?_)
      · rw [server_timestampUpdated]; rfl
      · rw [server_timestampUpdated]; rfl
      · rw [server_timestampUpdated]; rfl
      · rw [inLoop]; rfl
      · rw [trace_timestampUpdated]; rfl
  | @notifyFailed h rest inLoop =>
      refine .quiet rfl rfl (cycle.of_frame rfl rfl rfl ?_ rfl)
      rw [inLoop]
      rfl
  | endUpdated inLoop => exact .quiet rfl rfl (cycle.endUpdated running inLoop)
  | endFailed inLoop => exact .quiet rfl rfl (cycle.endFailed running inLoop)
  | slotNull finishing =>
      exact .quiet finishing.answer_handler rfl (cycle.of_frame rfl rfl rfl rfl rfl)
  | slotOutcome finishing =>
      refine .quiet finishing.answer_handler rfl (cycle.of_frame rfl rfl rfl ?_ rfl)
      rw [finishing.loop]
      rfl
  | @slotRetry h r q finishing pending rejected =>
      obtain ⟨t, clock⟩ := Option.ne_none_iff_exists'.mp running
      rw [enlist_of_pending (w := ((w.enterSlot h r).takePending h q).spendRetry h q) clock]
      exact .quiet finishing.answer_handler rfl (cycle.of_frame rfl rfl rfl rfl rfl)
  | serverRetry finishing refused left =>
      obtain ⟨unacceptable, total, kept, silent⟩ := cycle.asking_of_loop running finishing.loop
      rw [finishing.answer_server]
      refine .asking (unacceptable_concat unacceptable refused) ?_ kept (Option.some_ne_none _) ?_
        silent
      · rw [server_ask, Option.toList_some, List.length_append, List.length_singleton]
        dsimp only
        omega
      · rw [control_ask, control_discard, control_enterServer, finishing.loop]
        rfl
  | serverFailed finishing refused left =>
      obtain ⟨unacceptable, total, kept, silent⟩ := cycle.asking_of_loop running finishing.loop
      rw [finishing.answer_server]
      refine .failed (unacceptable_concat unacceptable refused) ?_ kept (fun _ => rfl) ?_
      · rw [Option.toList_some, List.length_append, List.length_singleton]
        omega
      · exact unsignalled running silent
  | serverUpdated finishing accepted =>
      obtain ⟨unacceptable, total, -, silent⟩ := cycle.asking_of_loop running finishing.loop
      obtain ⟨v, acceptable, rfl⟩ := replyDelta_eq_some_iff.mp accepted
      rw [finishing.answer_server]
      refine .changed rfl unacceptable (by omega) acceptable (toInt_toLongLong acceptable.inRange)
        (fun _ => rfl) (unsignalled running silent)

/-- A time-delta request is issued with all retries to go and nothing answered. -/
theorem Cycle.start {e : Event P ι} (inv : w.Inv) (idle : w.server.pendingReply = none)
    (stepped : w.step e = some w') (running : w'.server.pendingReply ≠ none) :
    w'.Cycle w.server.currentTimeDelta [] (signals w.trace) := by
  cases step_action inv stepped with
  | @slotRetry h r q finishing pending rejected =>
      have enlisted := enlist_of_idle
        (w := ((w.enterSlot h r).takePending h q).spendRetry h q) idle h
      rw [enlisted] at running ⊢
      refine .asking (fun a member => absurd member List.not_mem_nil) rfl rfl running ?_ rfl
      rw [control_append, control_ask, control_spendRetry, control_takePending, control_enterSlot,
        finishing.loop]
      rfl
  | postDeferred _ _ pending => cases idle.symm.trans pending
  | serverRetry finishing | serverFailed finishing | serverUpdated finishing =>
      cases idle.symm.trans (inv.asked _ finishing.live finishing.receiver).1
  | configure plain => exact absurd (plain.pending.trans idle) running
  | postNow | notifyUpdated =>
      rw [server_timestampUpdated] at running
      exact absurd idle running
  | endUpdated | endFailed => exact absurd rfl running
  | postBlocked | setSecret | setDefaultSecret | returned | resumed | notifyFailed | arrived
  | destroyed | slotNull | slotOutcome => exact absurd idle running

/-- The answers of a run are judged one after the other. -/
theorem Cycle.run {es : List (Event P ι)} (inv : w.Inv) (cycle : w.Cycle timeDelta answers earlier)
    (run : Run World.step Updating w es w') :
    w'.Cycle (configuredDelta timeDelta es) (answers ++ w.answers es) earlier := by
  induction run generalizing timeDelta answers with
  | nil =>
      rw [World.answers, List.append_nil]
      exact cycle
  | cons running stepped _ ih =>
      have next := ih (inv.step stepped) (cycle.step inv running stepped)
      rw [World.answers, stepped, ← List.append_assoc]
      exact next

omit [DecidableEq ι] in
theorem configuredDelta_of_untouched {es : List (Event P ι)}
    (untouched : ∀ d, .call (.setTimeDelta d) ∉ es) : configuredDelta timeDelta es = timeDelta := by
  induction es with
  | nil => rfl
  | cons e es ih =>
      have rest := ih fun d member => untouched d (List.mem_cons_of_mem _ member)
      rw [configuredDelta, List.foldl_cons]
      have same : e.configuredDelta timeDelta = timeDelta := by
        unfold Event.configuredDelta
        split
        · exact absurd List.mem_cons_self (untouched _)
        · rfl
      rw [same]
      exact rest

/-! ## The end of a cycle -/

/-- The notification loop runs to its end on its own: nothing but its iterations and the returns of
the callbacks it makes is needed. -/
def Drains (w : World P ι) : Prop :=
  ∃ es v, (∀ e ∈ es, e = .next ∨ e = .ret) ∧ Run World.step Updating w es v ∧
    v.server.pendingReply = none

theorem Drains.cons {e : Event P ι} (running : w.server.pendingReply ≠ none)
    (stepped : w.step e = some w') (own : e = .next ∨ e = .ret) (drains : w'.Drains) :
    w.Drains := by
  obtain ⟨es, v, only, run, ended⟩ := drains
  refine ⟨e :: es, v, fun d member => ?_, .cons running stepped run, ended⟩
  rcases List.mem_cons.mp member with rfl | rest
  · exact own
  · exact only d rest

theorem Drains.last {e : Event P ι} (running : w.server.pendingReply ≠ none)
    (stepped : w.step e = some w') (own : e = .next ∨ e = .ret)
    (ended : w'.server.pendingReply = none) : w.Drains :=
  .cons running stepped own ⟨[], w', fun _ member => absurd member List.not_mem_nil, .nil, ended⟩

theorem step_ret_of_failed {h : ι} {rest : List ι} (control : w.control = .failed h rest) :
    w.step .ret = some { w with control := .failing rest } := by
  rw [step, return_, control]

theorem drains_of_loop {rest : List ι} (inv : w.Inv)
    (inLoop : w.control = .updating rest ∨ w.control = .failing rest) : w.Drains := by
  have running : w.server.pendingReply ≠ none := by
    apply inv.notifying
    rcases inLoop with loop | loop
    · rw [loop]; rfl
    · rw [loop]; rfl
  induction rest generalizing w with
  | nil =>
      rcases inLoop with loop | loop
      · have stepped : w.step .next =
            some { w.withCore (w.toCore.release true) with control := .signal } := by
          rw [step, iterate, loop]
        exact .last running stepped (.inl rfl) rfl
      · have stepped : w.step .next =
            some { w.withCore (w.toCore.release false) with control := .signal } := by
          rw [step, iterate, loop]
        exact .last running stepped (.inl rfl) rfl
  | cons h rest ih =>
      rcases inLoop with loop | loop
      · have stepped : w.step .next = some
            { (w.note (.notified h true)).timestampUpdated h with control := .updating rest } := by
          rw [step, iterate, loop]
        have running' : ((w.note (.notified h true)).timestampUpdated h).server.pendingReply ≠
            none := by
          rw [server_timestampUpdated]
          exact running
        exact .cons running stepped (.inl rfl) (ih (inv.step stepped) (.inl rfl) running')
      · have stepped : w.step .next = some
            { (w.note (.notified h false)).timestampUpdateFailed h with
              control := .failed h rest } := by
          rw [step, iterate, loop]
        have returned := step_ret_of_failed
          (w := { (w.note (.notified h false)).timestampUpdateFailed h with
            control := .failed h rest }) rfl
        have resumed := ih ((inv.step stepped).step returned) (.inr rfl) running
        exact .cons running stepped (.inl rfl) (.cons running returned (.inr rfl) resumed)

/-- Only a thread that waits for the mutex it holds is stuck in a loop. -/
theorem drains_of_locked (inv : w.Inv) (locked : w.control.locked = true)
    (alive : w.control ≠ .deadlock) : w.Drains := by
  cases control : w.control with
  | updating rest => exact drains_of_loop inv (.inl control)
  | failing rest => exact drains_of_loop inv (.inr control)
  | failed h rest =>
      have stepped := step_ret_of_failed control
      have resumed := drains_of_loop (inv.step stepped) (.inr rfl)
      exact .cons (inv.notifying locked) stepped (.inr rfl) resumed
  | deadlock => exact absurd control alive
  | loop | response | signal => rw [control] at locked; cases locked

/-- **An update cycle takes the first acceptable answer and otherwise changes nothing.**  Of a cycle
that starts in `u₁`, the answers received by any later moment `v` of it are: unacceptable, and at
most `numberRetries` so far, with the time delta as it was and no signal; or the last of them is
the first acceptable one and has been taken; or there are `1 + numberRetries`, all unacceptable,
and the time delta is as it was.  The last two end with the one signal that belongs to them. -/
theorem cycle_takes_first_acceptable {u u₁ v : World P ι} {es₀ es : List (Event P ι)}
    {e : Event P ι} (init : w.Initial) (before : FreeRun World.step w es₀ u)
    (idle : u.server.pendingReply = none) (started : u.step e = some u₁)
    (running : u₁.server.pendingReply ≠ none) (cycle : Run World.step Updating u₁ es v) :
    v.Cycle (configuredDelta u.server.currentTimeDelta es) (u₁.answers es) (signals u.trace) ∧
      ((∀ d, .call (.setTimeDelta d) ∉ es) →
        configuredDelta u.server.currentTimeDelta es = u.server.currentTimeDelta) ∧
      (v.control.locked = true → v.control ≠ .deadlock → v.Drains) := by
  have inv := init.reachable before
  have inv₁ := inv.step started
  have invNow : v.Inv := cycle.invariant (fun inv _ stepped => Inv.step inv stepped) inv₁
  refine ⟨?_, configuredDelta_of_untouched, drains_of_locked invNow⟩
  exact (Cycle.start inv idle started running).run inv₁ cycle

/-- The first request of a cycle is refused, the second answered: the server's clock is 5 seconds
ahead. -/
theorem cycle_takes_second_answer :
    ∃ u₁ v : World Platform.sample Bool,
      Run World.step Updating u₁
        (Sample.completes 1 Sample.refused ++ Sample.completes 2 (Sample.answered 5) ++
          [.next, .next]) v ∧
      v.Cycle 0 [Sample.refused, Sample.answered 5] [] ∧ v.server.pendingReply = none ∧
      v.server.currentTimeDelta = 5 := by
  let early : List Sample.Step := [Sample.secret, Sample.postByte 1, .arrive 0 Sample.rejected]
  have before : FreeRun World.step Sample.world early (Sample.reached early) :=
    .cons trivial rfl (.cons trivial rfl (.cons trivial rfl .nil))
  have started : (Sample.reached early).step (.finish 0) =
      some (Sample.reached (early ++ [.finish 0])) := rfl
  have cycle : ∃ v, Run World.step Updating (Sample.reached (early ++ [.finish 0]))
      (Sample.completes 1 Sample.refused ++ Sample.completes 2 (Sample.answered 5) ++
        [.next, .next]) v ∧ v.server.pendingReply = none ∧ v.server.currentTimeDelta = 5 :=
    ⟨_, run_of_isSome (by decide), by decide, by decide⟩
  obtain ⟨v, run, ended, delta⟩ := cycle
  have all := cycle_takes_first_acceptable Sample.world_initial before rfl started (by decide) run
  have brought : (Sample.reached (early ++ [.finish 0])).answers
      (Sample.completes 1 Sample.refused ++ Sample.completes 2 (Sample.answered 5) ++
        [.next, .next]) = [Sample.refused, Sample.answered 5] := by decide
  rw [brought] at all
  exact ⟨_, v, run, all.1, ended, delta⟩

end World

end RestApiOut
