import RestApiOut.WebHook.Sample
import RestApiOut.WebHook.Step

/-!
# Calls from a hook's own callback

`messageResponseReceived` and `timestampReplyReceived` clear `currentUrl` after the application's
code has run in `responseReceived`, or in `failedToSend` for want of retries.  A `send` made there
posts its message at once, and then its URL is gone.  After an unreadable correction `failedToSend`
is called as well, but `currentUrl` is kept.

`callback_calls_forgotten` holds in every run, however the hooks are used: until the hook is called
again, what it posts goes to the empty URL, and no time correction makes it send again.
-/

namespace RestApiOut

namespace Wh

open Transition

variable {P : WebHookPlatform} {κ : Type}

/-- A callback returns. -/
def HookEvent.returns : HookEvent P κ → Bool
  | .ret => true
  | .send _ _ _ | .forceTimeDeltaAdjustment _ | .setTimestampSecret _ | .setTimestampUrl _
  | .setTimeDelta _ | .resendTimeout _ | .timeDeltaTimeout _ | .arrive _ _ | .finish _
  | .destroyReply _ => false

variable [DecidableEq κ]

/-- The hook `k` is called. -/
def HookEvent.calls (k : κ) : HookEvent P κ → Bool
  | .send j _ _ | .forceTimeDeltaAdjustment j => decide (j = k)
  | .setTimestampSecret _ | .setTimestampUrl _ | .setTimeDelta _ | .ret | .resendTimeout _
  | .timeDeltaTimeout _ | .arrive _ _ | .finish _ | .destroyReply _ => false

omit [DecidableEq κ] in
/-- The observation shows no URL of `k`: a message goes nowhere, and nothing waits for the time. -/
def HookObservation.Forgets (k : κ) : HookObservation P κ → Prop
  | .message j _ request => j = k → request.url = P.emptyUrl
  | .timeDeltaUpdated j _ again => j = k → again = false
  | .sent _ _ _ | .forced _ | .timestamp _ _ _ | .retry _ _ | .jsonResponseReceived _ _
  | .responseReceived _ _ | .failedToSend _ _ => True

namespace Hooks

variable {s s' t u v : Hooks P κ} {j k : κ} {r : ReplyId}

omit [DecidableEq κ] in
/-- The hook `k` has no URL, and has shown none since `s`. -/
structure Forgotten (s s' : Hooks P κ) (k : κ) : Prop where
  url : (s'.hook k).currentUrl = P.emptyUrl
  trace : ∃ new, s'.trace = new ++ s.trace ∧ ∀ o ∈ new, o.Forgets k

omit [DecidableEq κ] in
theorem Forgotten.refl (empty : (s.hook k).currentUrl = P.emptyUrl) : s.Forgotten s k :=
  ⟨empty, [], rfl, by simp⟩

omit [DecidableEq κ] in
theorem Forgotten.frame (before : s.Forgotten u k) (hook : s'.hook = u.hook)
    (trace : s'.trace = u.trace) : s.Forgotten s' k where
  url := by rw [hook, before.url]
  trace := by rw [trace]; exact before.trace

omit [DecidableEq κ] in
theorem Forgotten.shows (before : s.Forgotten u k) {o : HookObservation P κ} (forgets : o.Forgets k)
    (hook : s'.hook = u.hook) (trace : s'.trace = o :: u.trace) : s.Forgotten s' k where
  url := by rw [hook, before.url]
  trace := by
    obtain ⟨new, emitted, all⟩ := before.trace
    refine ⟨o :: new, by rw [trace, emitted]; rfl, fun a member => ?_⟩
    rcases List.mem_cons.mp member with rfl | old
    · exact forgets
    · exact all a old

theorem Forgotten.setHook (before : s.Forgotten u k) {x : WebHook P}
    (kept : j = k → x.currentUrl = P.emptyUrl) : s.Forgotten (u.setHook j x) k where
  url := by
    rcases eq_or_ne k j with rfl | other
    · rw [hook_setHook_self, kept rfl]
    · rw [hook_setHook_of_ne u x other, before.url]
  trace := before.trace

theorem Forgotten.posted (before : s.Forgotten u k) {slot : Slot} {o : HookObservation P κ}
    (forgets : o.Forgets k) : s.Forgotten (u.posted j slot o) k where
  url := by
    rcases eq_or_ne k j with rfl | other
    · rw [hook_posted_self, before.url]
    · rw [hook_posted_of_ne u slot o other, before.url]
  trace := by
    have shown : s.Forgotten (u.note o) k := before.shows forgets rfl rfl
    exact shown.trace

theorem Forgotten.doSend (before : s.Forgotten u k) (j : κ) : s.Forgotten (u.doSend j) k := by
  rcases doSend_cases u j with ⟨-, spins⟩ | ⟨key, -, sends⟩
  · rw [spins]
    exact before.frame rfl rfl
  · rw [sends]
    exact before.posted fun same => same ▸ before.url

theorem Forgotten.doTimestampAdjustment (before : s.Forgotten u k) (j : κ) :
    s.Forgotten (u.doTimestampAdjustment j) k :=
  before.posted (o := .timestamp j u.network.next u.timestampRequest) trivial

theorem Forgotten.takePending (before : s.Forgotten u k) (j : κ) (r : ReplyId) :
    s.Forgotten (u.takePending j r) k := by
  have discarded : s.Forgotten { u with network := u.network.deleteLater r } k :=
    before.frame rfl rfl
  exact discarded.setHook fun same => same ▸ before.url

theorem Forgotten.retryLater (before : s.Forgotten u k) (j : κ) (r : ReplyId) (resend : Bool) :
    s.Forgotten (u.retryLater j r resend) k :=
  (before.setHook (j := j) fun same => same ▸ before.url).shows (o := .retry j r) trivial rfl rfl

omit [DecidableEq κ] in
theorem Forgotten.giveUp (before : s.Forgotten u k) (j : κ) (networkError : NetworkError) :
    s.Forgotten (u.giveUp j networkError) k :=
  before.shows (o := .failedToSend j (errorCode networkError)) trivial rfl rfl

/-- A correction finds no message that waits for it. -/
theorem Forgotten.timestampReplyReceived (before : s.Forgotten u k) (j : κ) :
    s.Forgotten (u.timestampReplyReceived j) k := by
  unfold Hooks.timestampReplyReceived
  split
  · exact before
  · rename_i reply pending
    have taken := before.takePending j reply
    dsimp only
    split
    · split
      · rename_i correction parsed
        have nothing : HookObservation.Forgets (P := P) k (.timeDeltaUpdated j correction
            (!P.isEmpty ((u.takePending j reply).hook j).currentUrl)) := by
          rintro rfl
          rw [taken.url, P.isEmpty_emptyUrl]
          rfl
        exact taken.shows nothing rfl rfl
      · exact taken.shows (o := .failedToSend j (errorCode protocolFailure)) trivial rfl rfl
    · split
      · exact taken.retryLater j reply false
      · exact taken.giveUp j _

theorem Forgotten.messageResponseReceived (before : s.Forgotten u k) (j : κ) :
    s.Forgotten (u.messageResponseReceived j) k := by
  unfold Hooks.messageResponseReceived
  split
  · exact before
  · rename_i reply pending
    have taken := before.takePending j reply
    dsimp only
    split
    · split
      · rename_i document parsed
        exact taken.shows (o := .jsonResponseReceived j document) trivial rfl rfl
      · exact taken.shows (o := .responseReceived j _) trivial rfl rfl
    · split
      · split
        · exact taken.retryLater j reply false
        · exact taken.retryLater j reply true
      · exact taken.giveUp j _

theorem Forgotten.return_ (before : s.Forgotten u k) (stepped : u.return_ = some v) :
    s.Forgotten v k := by
  unfold Hooks.return_ at stepped
  split at stepped
  · rename_i j receivedData called
    cases stepped
    exact before.shows (o := .responseReceived j receivedData) trivial rfl rfl
  · cases stepped
    exact (before.setHook fun _ => rfl).frame rfl rfl
  · cases stepped
    exact (before.setHook fun _ => rfl).frame rfl rfl
  · cases stepped
    exact before.frame rfl rfl
  · split at stepped
    · cases stepped
      exact before.frame rfl rfl
    · cases stepped
      exact (before.setHook fun same => same ▸ before.url).frame rfl rfl
  · cases stepped
  · cases stepped

/-- Only a call gives a hook a URL. -/
theorem Forgotten.step {e : HookEvent P κ} (before : s.Forgotten u k) (uncalled : e.calls k = false)
    (stepped : u.step e = some v) : s.Forgotten v k := by
  cases e with
  | send j url document =>
      obtain ⟨-, ⟨⟩⟩ := Option.ite_none_right_eq_some.mp stepped
      have other : j ≠ k := of_decide_eq_false uncalled
      have sent : s.Forgotten (u.note (.sent j url (P.toJson document))) k :=
        before.shows (o := .sent j url (P.toJson document)) trivial rfl rfl
      exact (sent.setHook fun same => absurd same other).doSend j
  | forceTimeDeltaAdjustment j =>
      obtain ⟨-, ⟨⟩⟩ := Option.ite_none_right_eq_some.mp stepped
      have forced : s.Forgotten (u.note (.forced j)) k :=
        before.shows (o := .forced j) trivial rfl rfl
      exact (forced.setHook fun _ => rfl).doTimestampAdjustment j
  | setTimestampSecret | setTimestampUrl | setTimeDelta | arrive | destroyReply =>
      obtain ⟨-, ⟨⟩⟩ := Option.ite_none_right_eq_some.mp stepped
      exact before.frame rfl rfl
  | ret => exact before.return_ stepped
  | resendTimeout j =>
      obtain ⟨-, ⟨⟩⟩ := Option.ite_none_right_eq_some.mp stepped
      exact (before.setHook fun same => same ▸ before.url).doSend j
  | timeDeltaTimeout j =>
      obtain ⟨-, ⟨⟩⟩ := Option.ite_none_right_eq_some.mp stepped
      exact (before.setHook fun same => same ▸ before.url).doTimestampAdjustment j
  | finish r =>
      obtain ⟨-, delivered⟩ := Option.ite_none_right_eq_some.mp stepped
      have retired : s.Forgotten { u with network := u.network.retire r } k := before.frame rfl rfl
      unfold deliver at delivered
      split at delivered
      · cases delivered
        exact retired.messageResponseReceived _
      · cases delivered
        exact retired.timestampReplyReceived _
      · cases delivered
      · cases delivered

/-- A callback of the application runs until it returns. -/
theorem control_of_inside {e : HookEvent P κ} (busy : u.control ≠ .loop) (stays : e.returns = false)
    (stepped : u.step e = some v) : v.control = u.control ∨ v.control = .spinning := by
  cases e with
  | send j url document =>
      obtain ⟨-, ⟨⟩⟩ := Option.ite_none_right_eq_some.mp stepped
      unfold Hooks.send
      rcases doSend_cases ((u.note (.sent j url (P.toJson document))).setHook j _) j with
        ⟨-, spins⟩ | ⟨key, -, sends⟩
      · exact .inr (by rw [spins])
      · exact .inl (by rw [sends]; rfl)
  | forceTimeDeltaAdjustment | setTimestampSecret | setTimestampUrl | setTimeDelta | arrive =>
      obtain ⟨-, ⟨⟩⟩ := Option.ite_none_right_eq_some.mp stepped
      exact .inl rfl
  | ret => cases stays
  | resendTimeout | timeDeltaTimeout | finish | destroyReply =>
      obtain ⟨⟨loop, -⟩, -⟩ := Option.ite_none_right_eq_some.mp stepped
      exact absurd loop busy

/-- **A call from the last callback is forgotten.** Whatever is called while the application's code
runs in `responseReceived` of a hook, or in `failedToSend` for want of retries: once it has
returned, and until the hook is called again, every message the hook posts goes to the empty URL,
and after a time correction it posts none.  This holds from any state, however the hooks are
used. -/
theorem callback_calls_forgotten {cs es : List (HookEvent P κ)}
    (called : s.control = .response k ∨ s.control = .failed k)
    (inside : Run step (fun _ e => e.returns = false) s cs u) (returned : u.step .ret = some v)
    (outside : Run step (fun _ e => e.calls k = false) v es t) :
    (t.hook k).currentUrl = P.emptyUrl ∧
      ∃ new, t.trace = new ++ v.trace ∧ ∀ o ∈ new, o.Forgets k := by
  have busy : s.control ≠ .loop := by
    rcases called with called | called
    · simp [called]
    · simp [called]
  have kept : u.control = s.control ∨ u.control = .spinning := by
    refine inside.invariant (I := fun x => x.control = s.control ∨ x.control = .spinning) ?_
      (.inl rfl)
    intro x e y before stays stepped
    have there : x.control ≠ .loop := by
      rcases before with same | spins
      · rw [same]
        exact busy
      · simp [spins]
    rcases control_of_inside there stays stepped with same | spins
    · rw [same]
      exact before
    · exact .inr spins
  have cleared : (v.hook k).currentUrl = P.emptyUrl := by
    have last : u.control = .response k ∨ u.control = .failed k := by
      rcases kept with same | spins
      · rw [same]
        exact called
      · simp [Hooks.step, Hooks.return_, spins] at returned
    rcases last with last | last
    · simp only [Hooks.step, Hooks.return_, last, Option.some.injEq] at returned
      rw [← returned]
      exact congrArg WebHook.currentUrl (hook_setHook_self u k _)
    · simp only [Hooks.step, Hooks.return_, last, Option.some.injEq] at returned
      rw [← returned]
      exact congrArg WebHook.currentUrl (hook_setHook_self u k _)
  have forgotten : v.Forgotten t k :=
    outside.invariant (I := fun x => v.Forgotten x k)
      (fun before uncalled stepped => before.step uncalled stepped) (.refl cleared)
  exact ⟨forgotten.url, forgotten.trace⟩

/-- A hook sends again when its first message has been answered, and the second is refused: a third
request goes out, to nowhere. -/
theorem callback_calls_forgotten_after_refusal :
    ∃ s u v t : Hooks WebHookPlatform.sample Bool,
      FreeRun step Sample.hooks
        ([Sample.sends true 5] ++ Sample.replies 0 RestApiOut.Sample.succeeded) s ∧
      Run step (fun _ e => e.returns = false) s [Sample.sends true 7] u ∧
      u.step .ret = some v ∧
      Run step (fun _ e => e.calls true = false) v
        (Sample.replies 1 RestApiOut.Sample.refused ++ [.resendTimeout true]) t ∧
      t.network.next = 3 ∧ ∃ new, t.trace = new ++ v.trace ∧ ∀ o ∈ new, o.Forgets true := by
  refine ⟨_, _, _, _, run_of_isSome (by decide), run_of_isSome (by decide),
    (Option.some_get (by decide)).symm, run_of_isSome (by decide), by decide, ?_⟩
  exact (callback_calls_forgotten (.inl (by decide)) (run_of_isSome (by decide))
    (Option.some_get (by decide)).symm (run_of_isSome (by decide))).2

end Hooks

end Wh

end RestApiOut
