import RestApiOut.WebHook.Session

/-!
# What the calls of a web hook come to

The protocol of a session says what a call costs and that it is concluded: `responseReceived`,
`failedToSend` or, if there is nothing to send, `timeDeltaUpdated`, once for each call.

`hook_calls_concluded` says that in serial use a `send` makes at most `2 * maximumNumberRetries`
requests, or one if no retries are allowed, and a `forceTimeDeltaAdjustment` at most
`maximumNumberRetries + 1`; and that a free hook has had one conclusion for each of its calls.
-/

namespace RestApiOut

namespace Wh

open Transition

variable {P : WebHookPlatform} {κ : Type} [DecidableEq κ]

/-! ## Counting -/

namespace HookObservation

def isSend (k : κ) : HookObservation P κ → Bool
  | .sent j _ _ => decide (j = k)
  | .forced _ | .message _ _ _ | .timestamp _ _ _ | .retry _ _ | .jsonResponseReceived _ _
  | .responseReceived _ _ | .failedToSend _ _ | .timeDeltaUpdated _ _ _ => false

def isForce (k : κ) : HookObservation P κ → Bool
  | .forced j => decide (j = k)
  | .sent _ _ _ | .message _ _ _ | .timestamp _ _ _ | .retry _ _ | .jsonResponseReceived _ _
  | .responseReceived _ _ | .failedToSend _ _ | .timeDeltaUpdated _ _ _ => false

/-- A request goes out, for the time or with a message. -/
def isRequest (k : κ) : HookObservation P κ → Bool
  | .message j _ _ | .timestamp j _ _ => decide (j = k)
  | .sent _ _ _ | .forced _ | .retry _ _ | .jsonResponseReceived _ _
  | .responseReceived _ _ | .failedToSend _ _ | .timeDeltaUpdated _ _ _ => false

/-- The last that is reported of a call. -/
def isConclusion (k : κ) : HookObservation P κ → Bool
  | .responseReceived j _ | .failedToSend j _ | .timeDeltaUpdated j _ false => decide (j = k)
  | .sent _ _ _ | .forced _ | .message _ _ _ | .timestamp _ _ _ | .retry _ _
  | .jsonResponseReceived _ _ | .timeDeltaUpdated _ _ true => false

end HookObservation

def sends (k : κ) (t : List (HookObservation P κ)) : Nat := t.countP (·.isSend k)

def forces (k : κ) (t : List (HookObservation P κ)) : Nat := t.countP (·.isForce k)

def requests (k : κ) (t : List (HookObservation P κ)) : Nat := t.countP (·.isRequest k)

def conclusions (k : κ) (t : List (HookObservation P κ)) : Nat := t.countP (·.isConclusion k)

/-! ## What a session costs -/

namespace HookSession

/-- The requests a session may still make.  A denied message that has retries left costs a request
for the time, and the last retry of all is a message. -/
def potential : HookSession P → Nat
  | .idle | .reporting _ => 0
  | .posting n _ => max 1 (2 * n)
  | .onMessage _ n _ => 2 * n - 1
  | .asking n (some _) => max 2 (2 * n + 1)
  | .onTime _ n (some _) => max 1 (2 * n)
  | .asking n none => n + 1
  | .onTime _ n none => n

/-- A call has not been concluded yet. -/
def pending : HookSession P → Nat
  | .idle => 0
  | .posting _ _ | .onMessage _ _ _ | .asking _ _ | .onTime _ _ _ | .reporting _ => 1

variable {k : κ} {secret : Bytes} {arrived : ReplyId → Option ReplyResult} {p q : HookSession P}
  {o : HookObservation P κ}

theorem unconcerned (other : ¬ o.concerns k) :
    o.isSend k = false ∧ o.isForce k = false ∧ o.isRequest k = false ∧
      o.isConclusion k = false := by
  cases o with
  | timeDeltaUpdated j correction again =>
      cases again with
      | false => exact ⟨rfl, rfl, rfl, decide_eq_false other⟩
      | true => exact ⟨rfl, rfl, rfl, rfl⟩
  | sent => exact ⟨decide_eq_false other, rfl, rfl, rfl⟩
  | forced => exact ⟨rfl, decide_eq_false other, rfl, rfl⟩
  | message | timestamp => exact ⟨rfl, rfl, decide_eq_false other, rfl⟩
  | responseReceived | failedToSend => exact ⟨rfl, rfl, rfl, decide_eq_false other⟩
  | retry | jsonResponseReceived => exact ⟨rfl, rfl, rfl, rfl⟩

theorem potential_ask (r : ReplyId) (n : Nat) (job : Option (Job P)) :
    1 + (onTime r n job).potential = (asking n job).potential := by
  cases job with
  | none => exact Nat.add_comm 1 n
  | some job =>
      simp only [potential]
      omega

/-- A retry pays for asking again. -/
theorem potential_askAgain (r : ReplyId) (n : Nat) (job : Option (Job P)) :
    (asking n job).potential ≤ (onTime r (n + 1) job).potential := by
  cases job with
  | none => exact Nat.le_refl _
  | some job =>
      simp only [potential]
      omega

/-- Every request is paid for by the call, or by what the session had left. -/
theorem Next.pays (allowed : Next k secret arrived p o q) :
    (if o.isRequest k then 1 else 0) + q.potential ≤
      ((if o.isSend k then max 1 (2 * P.maximumNumberRetries) else 0) +
        if o.isForce k then P.maximumNumberRetries + 1 else 0) + p.potential := by
  cases allowed with
  | other other =>
      obtain ⟨send, force, request, -⟩ := unconcerned other
      simp [send, force, request]
  | send | force | message | report | text | fail | deny | again | json | resume | unreadable
  | failTime =>
      simp only [HookObservation.isRequest, HookObservation.isSend, HookObservation.isForce,
        potential, decide_true, if_true, Bool.false_eq_true, if_false]
      omega
  | timestamp =>
      simp only [HookObservation.isRequest, HookObservation.isSend, HookObservation.isForce,
        decide_true, if_true, Bool.false_eq_true, if_false, Nat.zero_add]
      exact (potential_ask _ _ _).le
  | askAgain =>
      simp only [HookObservation.isRequest, HookObservation.isSend, HookObservation.isForce,
        Bool.false_eq_true, if_false, Nat.zero_add]
      exact potential_askAgain _ _ _
  | adjusted => exact Nat.zero_le _

/-- A session is opened by a call and closed by its conclusion. -/
theorem Next.concludes (allowed : Next k secret arrived p o q) :
    (if o.isConclusion k then 1 else 0) + q.pending =
      ((if o.isSend k then 1 else 0) + if o.isForce k then 1 else 0) + p.pending := by
  cases allowed with
  | other other =>
      obtain ⟨send, force, -, conclusion⟩ := unconcerned other
      simp [send, force, conclusion]
  | send | force | message | timestamp | json | report | text | deny | again | fail | resume
  | adjusted | unreadable | askAgain | failTime =>
      simp [HookObservation.isConclusion, HookObservation.isSend, HookObservation.isForce, pending]

end HookSession

namespace Hooks

variable {s s' : Hooks P κ} {k : κ} {p q : HookSession P} {t : List (HookObservation P κ)}

/-- A history of sessions costs no more requests than its calls earn. -/
theorem requests_le (follows : Follows (s.session k) p t q) :
    requests k t + q.potential ≤
      max 1 (2 * P.maximumNumberRetries) * sends k t +
        (P.maximumNumberRetries + 1) * forces k t + p.potential := by
  refine Follows.countP_le ?_ follows
  exact fun p o q allowed => HookSession.Next.pays allowed

theorem conclusions_add_pending (follows : Follows (s.session k) p t q) :
    conclusions k t + q.pending = sends k t + forces k t + p.pending := by
  induction follows with
  | nil => rfl
  | cons _ allowed ih =>
      have step := HookSession.Next.concludes allowed
      simp only [conclusions, sends, forces, List.countP_cons] at ih ⊢
      omega

/-- A hook that is free owes nothing. -/
theorem concluded_of_free {es : List (HookEvent P κ)} (init : s.Initial)
    (run : Run step Serial s es s') (running : s'.control ≠ .spinning) (free : s'.Free k) :
    conclusions k s'.trace = sends k s'.trace + forces k s'.trace := by
  obtain ⟨p, follows, here⟩ := init.ordered.follows run (init.follows k) fun _ => init.inSession k
  have balance := conclusions_add_pending follows
  cases (here running).idle_of_free free
  exact balance

/-- **What calls come to.** In serial use a hook makes at most `max 1 (2 * maximumNumberRetries)`
requests for each `send` and `maximumNumberRetries + 1` for each `forceTimeDeltaAdjustment`; at most
one of its calls has not been concluded yet, and none once the hook is free. -/
theorem hook_calls_concluded {es : List (HookEvent P κ)} (init : s.Initial)
    (run : Run step Serial s es s') (k : κ) :
    requests k s'.trace ≤ max 1 (2 * P.maximumNumberRetries) * sends k s'.trace +
        (P.maximumNumberRetries + 1) * forces k s'.trace ∧
      conclusions k s'.trace ≤ sends k s'.trace + forces k s'.trace ∧
      sends k s'.trace + forces k s'.trace ≤ conclusions k s'.trace + 1 ∧
      (s'.control ≠ .spinning → s'.Free k →
        conclusions k s'.trace = sends k s'.trace + forces k s'.trace) := by
  obtain ⟨p, follows, -⟩ := init.ordered.follows run (init.follows k) fun _ => init.inSession k
  have paid := requests_le follows
  have none_ : (HookSession.idle : HookSession P).potential = 0 := rfl
  have balance : conclusions k s'.trace + p.pending =
      sends k s'.trace + forces k s'.trace + 0 := conclusions_add_pending follows
  have one : p.pending ≤ 1 := by
    cases p with
    | idle => exact Nat.zero_le 1
    | posting | onMessage | asking | onTime | reporting => exact Nat.le_refl 1
  refine ⟨?_, ?_, ?_, concluded_of_free init run⟩
  · omega
  · omega
  · omega

/-- Denied twice and refused twice: a message spends its six requests, and the hook is free when the
failure has been reported. -/
theorem hook_calls_concluded_tight :
    ∃ s', Run step Serial Sample.hooks
        ([Sample.sends true 5] ++ Sample.replies 0 Sample.denied ++ [.timeDeltaTimeout true] ++
          Sample.replies 1 (Sample.correction 1000) ++ [.ret, .resendTimeout true] ++
          Sample.replies 2 Sample.denied ++ [.timeDeltaTimeout true] ++
          Sample.replies 3 (Sample.correction 2000) ++ [.ret, .resendTimeout true] ++
          Sample.replies 4 Sample.denied ++ [.resendTimeout true] ++
          Sample.replies 5 RestApiOut.Sample.refused ++ [.ret]) s' ∧
      (requests true s'.trace = 6 ∧ sends true s'.trace = 1 ∧ conclusions true s'.trace = 1) ∧
      requests true s'.trace ≤ 6 * sends true s'.trace + 4 * forces true s'.trace :=
  ⟨_, run_of_isSome (by decide), by decide,
    (hook_calls_concluded Sample.hooks_initial (run_of_isSome (by decide)) true).1⟩

end Hooks

end Wh

end RestApiOut
