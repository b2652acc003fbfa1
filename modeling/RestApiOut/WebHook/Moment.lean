import RestApiOut.WebHook.Step

/-!
# The moment of a step

`doSend` makes the key of a message from the minute in which it is called, and
`doTimestampAdjustment` reads where to ask for the time, and the time itself, when it is called;
between a call and the message, and between a denial and its correction, any number of steps may
pass.  `Dated` says of what one step shows which moment it is of.

`Held.dated` is the step lemma: everything shown is of the state the step starts in, and the time
delta changes by a correction that is shown, or by the application's own setter.
-/

namespace RestApiOut

namespace Wh

variable {P : WebHookPlatform} {κ : Type}

namespace Hooks

variable {s s' u : Hooks P κ} {j k : κ} {r : ReplyId}

/-- What the step from `s` to `s'` shows is of its moment.  A message is signed with the key of the
minute it is sent in, by the clock and the time delta of `s`; a request for the time goes where the
time is asked for in `s`, and carries the time of the clock; a correction is the time delta from
then on; and a failure is reported with the number Qt gives to the error of the reply `k` holds, or
to a protocol failure. -/
def Dated (s s' : Hooks P κ) : HookObservation P κ → Prop
  | .message k _ request => ∃ key, signingKey (s.hook k).currentSecret
      (P.dateTime s.ticks s.globalTimeDelta) hmacBlockLength = some key ∧
      request =
        { url := (s'.hook k).currentUrl
          userAgent := "Inesonic, LLC"
          contentType := "application/json"
          body := P.toJson (P.ofObject (jsonMessage (s'.hook k).currentPayload
            (P.hmac key (s'.hook k).currentPayload))) }
  | .timestamp _ _ request => request =
      { url := s.globalTimestampUrl
        userAgent := "Inesonic, LLC"
        contentType := "application/json"
        body := P.toJson (P.ofObject (jsonMessage (P.currentMSecs s.ticks)
          (P.hmac s.globalTimestampSecret (P.currentMSecs s.ticks)))) }
  | .timeDeltaUpdated _ correction _ => s'.globalTimeDelta = correction
  | .failedToSend k code => code = 399 ∨ ∃ r, (s.hook k).pendingReply = some r ∧
      ((s.network.result r).error = .other code ∨
        (s.network.result r).error = .authenticationRequired ∧ code = 204)
  | .sent _ _ _ | .forced _ | .retry _ _ | .jsonResponseReceived _ _ | .responseReceived _ _ => True

/-- All that is shown on the way from `s` to `s'` is of the moment of `s`, and the time delta
stays. -/
def Dates (s s' : Hooks P κ) : Prop :=
  ∃ new, s'.trace = new ++ s.trace ∧ (∀ o ∈ new, s.Dated s' o) ∧
    s'.globalTimeDelta = s.globalTimeDelta

/-- What the moment of a step is read from. -/
structure SameMoment (s u : Hooks P κ) : Prop where
  secret : ∀ k, (u.hook k).currentSecret = (s.hook k).currentSecret
  pending : ∀ k, (u.hook k).pendingReply = (s.hook k).pendingReply
  ticks : u.ticks = s.ticks
  delta : u.globalTimeDelta = s.globalTimeDelta
  url : u.globalTimestampUrl = s.globalTimestampUrl
  timestampSecret : u.globalTimestampSecret = s.globalTimestampSecret
  network : u.network = s.network

theorem SameMoment.refl (s : Hooks P κ) : s.SameMoment s :=
  ⟨fun _ => rfl, fun _ => rfl, rfl, rfl, rfl, rfl, rfl⟩

theorem sameMoment_note (s : Hooks P κ) (o : HookObservation P κ) : s.SameMoment (s.note o) :=
  ⟨fun _ => rfl, fun _ => rfl, rfl, rfl, rfl, rfl, rfl⟩

theorem SameMoment.dated {o : HookObservation P κ} (same : s.SameMoment u)
    (dated : u.Dated s' o) : s.Dated s' o := by
  cases o with
  | message k r request =>
      rw [Dated, same.secret, same.ticks, same.delta] at dated
      exact dated
  | timestamp k r request =>
      rw [Dated, same.ticks, same.url, same.timestampSecret] at dated
      exact dated
  | failedToSend k code =>
      rw [Dated, same.pending, same.network] at dated
      exact dated
  | timeDeltaUpdated => exact dated
  | sent | forced | retry | jsonResponseReceived | responseReceived => trivial

/-- A request made right after a call has been noted, or a timer stopped. -/
theorem Dates.of_called (first : List (HookObservation P κ)) (same : s.SameMoment u)
    (shown : u.trace = first ++ s.trace) (before : ∀ o ∈ first, s.Dated s' o)
    (rest : u.Dates s') : s.Dates s' := by
  obtain ⟨new, emitted, dated, delta⟩ := rest
  refine ⟨new ++ first, ?_, fun o member => ?_, delta.trans same.delta⟩
  · rw [emitted, shown, List.append_assoc]
  · rcases List.mem_append.mp member with now | called
    · exact same.dated (dated o now)
    · exact before o called

variable [DecidableEq κ]

theorem SameMoment.setHook {x : WebHook P} (same : s.SameMoment u)
    (secret : x.currentSecret = (s.hook k).currentSecret)
    (pending : x.pendingReply = (s.hook k).pendingReply) : s.SameMoment (u.setHook k x) where
  secret j := by
    rcases eq_or_ne j k with rfl | other
    · rw [hook_setHook_self, secret]
    · rw [hook_setHook_of_ne u x other, same.secret]
  pending j := by
    rcases eq_or_ne j k with rfl | other
    · rw [hook_setHook_self, pending]
    · rw [hook_setHook_of_ne u x other, same.pending]
  ticks := same.ticks
  delta := same.delta
  url := same.url
  timestampSecret := same.timestampSecret
  network := same.network

theorem dates_doSend (s : Hooks P κ) (k : κ) : s.Dates (s.doSend k) := by
  rcases doSend_cases s k with ⟨-, spins⟩ | ⟨key, made, sends⟩
  · rw [spins]
    exact ⟨[], rfl, fun o member => absurd member List.not_mem_nil, rfl⟩
  · rw [sends]
    refine ⟨[_], rfl, fun o member => ?_, rfl⟩
    cases List.mem_singleton.mp member
    refine ⟨key, made, ?_⟩
    rw [hook_posted_self]
    rfl

theorem dates_doTimestampAdjustment (s : Hooks P κ) (k : κ) :
    s.Dates (s.doTimestampAdjustment k) := by
  refine ⟨[_], rfl, fun o member => ?_, rfl⟩
  cases List.mem_singleton.mp member
  rfl

theorem Answered.dated {slot : Slot} (answered : s.Answered k r slot s')
    (own : (s.hook k).pendingReply = some r) :
    ∃ o, s'.trace = o :: s.trace ∧ s.Dated s' o ∧ (s'.globalTimeDelta = s.globalTimeDelta ∨
      ∃ j correction again, o = .timeDeltaUpdated j correction again) := by
  cases answered with
  | json | text | deny | again | askAgain => exact ⟨_, rfl, trivial, .inl rfl⟩
  | updated => exact ⟨_, rfl, rfl, .inr ⟨_, _, _, rfl⟩⟩
  | unreadable => exact ⟨_, rfl, .inl rfl, .inl rfl⟩
  | fail failed =>
      refine ⟨_, rfl, .inr ⟨r, own, ?_⟩, .inl rfl⟩
      cases error : (s.network.result r).error with
      | noError => exact absurd error failed
      | authenticationRequired => exact .inr ⟨rfl, rfl⟩
      | other code => exact .inl rfl

/-- **What a step shows is of its moment**, and nothing but a correction and the application's own
setter changes the time delta. -/
theorem Held.dated {e : HookEvent P κ} (held : s.Held) (stepped : s.step e = some s') :
    ∃ new, s'.trace = new ++ s.trace ∧ (∀ o ∈ new, s.Dated s' o) ∧
      (s'.globalTimeDelta = s.globalTimeDelta ∨
        (∃ j correction again, .timeDeltaUpdated j correction again ∈ new) ∨
        ∃ delta, e = .setTimeDelta delta) := by
  cases held.move stepped with
  | @send k url document =>
      have noted := sameMoment_note s (.sent k url (P.toJson document))
      have dates : s.Dates (s.send k url document) := .of_called [_]
        (noted.setHook (by rfl) (by rfl)) rfl (List.forall_mem_singleton.mpr trivial)
        (dates_doSend _ k)
      obtain ⟨new, emitted, dated, delta⟩ := dates
      exact ⟨new, emitted, dated, .inl delta⟩
  | @force k =>
      have noted := sameMoment_note s (.forced k)
      have dates : s.Dates (s.forceTimeDeltaAdjustment k) := .of_called [_]
        (noted.setHook (by rfl) (by rfl)) rfl (List.forall_mem_singleton.mpr trivial)
        (dates_doTimestampAdjustment _ k)
      obtain ⟨new, emitted, dated, delta⟩ := dates
      exact ⟨new, emitted, dated, .inl delta⟩
  | configure setter _ _ _ trace =>
      refine ⟨[], trace, fun o member => absurd member List.not_mem_nil, ?_⟩
      cases e with
      | setTimeDelta delta => exact .inr (.inr ⟨delta, rfl⟩)
      | setTimestampSecret | setTimestampUrl =>
          obtain ⟨-, ⟨⟩⟩ := Option.ite_none_right_eq_some.mp stepped
          exact .inl rfl
      | send | forceTimeDeltaAdjustment | ret | resendTimeout | timeDeltaTimeout | arrive | finish
      | destroyReply => exact absurd setter id
  | report =>
      refine ⟨[_], rfl, fun o member => ?_, .inl rfl⟩
      cases List.mem_singleton.mp member
      trivial
  | clear | leave | resend | arrive =>
      exact ⟨[], rfl, fun o member => absurd member List.not_mem_nil, .inl rfl⟩
  | @resendTimeout k =>
      have dates : s.Dates ((s.setHook k { s.hook k with resendTimer := false }).doSend k) :=
        .of_called [] (.setHook (.refl s) (by rfl) (by rfl)) rfl (List.forall_mem_nil _)
          (dates_doSend _ k)
      obtain ⟨new, emitted, dated, delta⟩ := dates
      exact ⟨new, emitted, dated, .inl delta⟩
  | @timeDeltaTimeout k =>
      have dates : s.Dates
          ((s.setHook k { s.hook k with timeDeltaTimer := false }).doTimestampAdjustment k) :=
        .of_called [] (.setHook (.refl s) (by rfl) (by rfl)) rfl (List.forall_mem_nil _)
          (dates_doTimestampAdjustment _ k)
      obtain ⟨new, emitted, dated, delta⟩ := dates
      exact ⟨new, emitted, dated, .inl delta⟩
  | finish loop answer own receiver answered =>
      obtain ⟨o, emitted, dated, delta⟩ := answered.dated own
      refine ⟨[o], emitted, fun o' member => ?_, ?_⟩
      · cases List.mem_singleton.mp member
        exact dated
      · rcases delta with same | ⟨j, correction, again, rfl⟩
        · exact .inl same
        · exact .inr (.inl ⟨j, correction, again, List.mem_cons_self⟩)

end Hooks

end Wh

end RestApiOut
