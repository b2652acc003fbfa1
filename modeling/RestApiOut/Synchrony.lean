import RestApiOut.TimeWindow
import RestApiOut.Framing
import RestApiOut.UpdateCycle

/-!
# A synchronised client is understood

The point of the whole protocol: once the client has taken an honest time delta, the remote side
accepts every message it sends.  The remote clock is `offset` seconds ahead of the client's, and an
honest answer says so up to the time its request travelled, at most `latency` (`Honest`).

The invariant is `Truthful`: it holds from the first accepted answer on, through later updates, and
puts the window of every message between the window of the remote clock and that of `latency`
seconds later.  `messages_accepted` follows a run from that answer to a message of any handler and
hands the message to a receiver that knows the handler's secret.
-/

namespace RestApiOut

open Transition

variable {P : Platform} {ι : Type} {offset latency : ℤ}

/-- The difference of the two clocks, up to the time a request travels. -/
def Truthful (offset latency : ℤ) (timeDelta : Int64) : Prop :=
  offset ≤ timeDelta.toInt ∧ timeDelta.toInt ≤ offset + latency

/-- The window of a truthful delta is that of the remote clock, or of at most `latency` later. -/
theorem Truthful.window {now timeDelta : Int64} (truthful : Truthful offset latency timeDelta)
    (positive : 0 ≤ now.toInt + offset) :
    (now.toInt + offset) / windowLength ≤ windowNumber now timeDelta ∧
      (windowNumber now timeDelta : ℤ) ≤ (now.toInt + offset + latency) / windowLength ∧
      (latency < windowLength →
        (windowNumber now timeDelta : ℤ) ≤ (now.toInt + offset) / windowLength + 1) := by
  obtain ⟨low, high⟩ := truthful
  have nonneg : 0 ≤ now.toInt + timeDelta.toInt := by omega
  have window := toNat_hashSuffix_of_nonneg nonneg
  rw [toNat_hashSuffix_eq] at window
  simp only [window, windowLength]
  omega

/-- An answer carries one time delta. -/
theorem answers_unique {result : ReplyResult} {v v' : ℚ} (left : Answers P result v)
    (right : Answers P result v') : v = v' := by
  obtain ⟨document, o, parsed, root, answer⟩ := left.body
  obtain ⟨document', o', parsed', root', answer'⟩ := right.body
  cases parsed.symm.trans parsed'
  cases root.symm.trans root'
  have number := (JsonObject.isAnswer_iff.mp answer).2.2
  have number' := (JsonObject.isAnswer_iff.mp answer').2.2
  cases number.symm.trans number'
  rfl

namespace World

variable {w w' : World P ι} {h : ι} {q r : ReplyId}

/-- An answer that reaches the server's slot was computed by a clock `offset` ahead, when its
request had travelled for at most `latency`; and the application sets no other time delta. -/
def Honest (offset latency : ℤ) (w : World P ι) (e : Event P ι) : Prop :=
  (∀ timeDelta, e = .call (.setTimeDelta timeDelta) → Truthful offset latency timeDelta) ∧
    ∀ result v, w.answer e = some result → Answers P result v →
      ∃ lag : ℤ, 0 ≤ lag ∧ lag ≤ latency ∧ v = ((offset + lag : ℤ) : ℚ)

/-- What is accepted of an honest answer is truthful. -/
theorem Honest.truthful {e : Event P ι} {result : ReplyResult} {timeDelta : Int64}
    (honest : Honest offset latency w e) (answer : w.answer e = some result)
    (accepted : replyDelta P result = some timeDelta) : Truthful offset latency timeDelta := by
  obtain ⟨v, acceptable, rfl⟩ := replyDelta_eq_some_iff.mp accepted
  obtain ⟨lag, early, late, same⟩ := honest.2 result v answer acceptable.toAnswers
  have value := toInt_toLongLong acceptable.inRange
  rw [same, truncate_intCast] at value
  rw [same]
  exact ⟨by omega, by omega⟩

variable [DecidableEq ι]

/-- An honest step keeps the delta truthful. -/
theorem Honest.step {e : Event P ι} (honest : Honest offset latency w e) (inv : w.Inv)
    (truthful : Truthful offset latency w.server.currentTimeDelta) (stepped : w.step e = some w') :
    Truthful offset latency w'.server.currentTimeDelta := by
  cases step_action inv stepped with
  | @configure c s plain noPost user =>
      have called : w.call c = some { w with server := s } := by
        rw [← stepped, step, if_pos user]
      have delta : s.currentTimeDelta =
          (Event.call c).configuredDelta w.server.currentTimeDelta := delta_of_call noPost called
      change Truthful offset latency s.currentTimeDelta
      rw [delta]
      cases c with
      | setTimeDelta timeDelta => exact honest.1 timeDelta rfl
      | post | setSecret | setDefaultSecret | setSchemeAndHost | setUserAgent
      | setTimeDeltaSlug => exact truthful
  | serverUpdated finishing accepted =>
      exact honest.truthful finishing.answer_server accepted
  | postNow | notifyUpdated =>
      rw [server_timestampUpdated]
      exact truthful
  | @slotRetry h r q =>
      have kept := enlist_congr (fun w => w.server.currentTimeDelta)
        (w := ((w.enterSlot h r).takePending h q).spendRetry h q) (h := h) (fun _ => rfl)
        fun _ _ => rfl
      rw [kept]
      exact truthful
  | postDeferred | postBlocked | setSecret | setDefaultSecret | returned | resumed | endUpdated
  | endFailed | notifyFailed | arrived | destroyed | slotNull | slotOutcome | serverRetry
  | serverFailed => exact truthful

/-- A receiver that knows the handler's secret and takes the window from the remote clock reads the
payload of the handler's latest post from every message. -/
theorem Configured.accepted {e : Event P ι} {new : Trace P ι} {superseded : Option ReplyId}
    {m : Message P} {secret : Bytes} (configured : w.Configured) (inv : w.Inv)
    (compact : CompactIsJson P)
    (digests : ∀ key payload, (P.hmac key payload).length = hashLength)
    (stepped : w.step e = some w') (emitted : w'.trace = new ++ w.trace)
    (sent : .sent h superseded r m ∈ new) (effective : effectiveSecret h w'.trace = some secret) :
    ∃ base endpoint content, lastPost h w'.trace = some (base, endpoint, content) ∧
      accepts P content.kind
        (secret ++ wordBytes (windowNumber (P.clock w.ticks) w.server.currentTimeDelta))
        m.request.body = some content.payload := by
  have message : MessageOf w w'.trace h m := by
    rcases (step_action inv stepped).sent_cases emitted sent with
      ⟨endpoint, content, idle, kind, rfl, trace⟩ | ⟨rest, inLoop, rfl, trace⟩
    · have message := (configured.beginPost endpoint kind).messageOf
        (lastPost_beginPost w h endpoint content)
      rw [trace]
      exact ⟨message.request, message.signed⟩
    · have posted : lastPost h w.trace ≠ none := by
        refine configured.posted h (.inr ?_)
        rw [awaiting_updating inLoop]
        exact List.mem_cons_self
      have message := configured.messageOf posted
      rw [trace]
      exact ⟨message.request, message.signed⟩
  obtain ⟨base, endpoint, content, last, carries⟩ := message.request
  obtain ⟨-, payload, body⟩ := Message.isFor_iff.mp carries
  have hash := message.signed secret effective
  refine ⟨base, endpoint, content, last, accepts_of_unframe ?_⟩
  rw [body, ← payload, hash]
  exact Kind.unframe_frame compact content.kind m.payload (digests _ _)

/-- **Once synchronised, always understood.**  After an acceptable honest answer, and as long as
answers are honest and the application sets no other time delta, every message any handler sends is
accepted by a receiver that holds the handler's secret, under the window of the remote clock at that
moment or of at most `latency` seconds later (the next one, if requests travel for less than a
window), and the receiver reads the payload of the handler's latest post. -/
theorem messages_accepted {v v' x x' : World P ι} {es es' : List (Event P ι)} {e : Event P ι}
    {new : Trace P ι} {superseded : Option ReplyId} {m : Message P} {secret : Bytes} {value : ℚ}
    (init : w.Initial) (before : FreeRun World.step w es v)
    (delivered : v.step (.finish q) = some v') (slot : v.network.receiver q = some .server)
    (acceptable : Acceptable P (v.network.result q) value)
    (honest : Honest offset latency v (.finish q))
    (since : Run World.step (Honest offset latency) v' es' x) (stepped : x.step e = some x')
    (emitted : x'.trace = new ++ x.trace) (sent : .sent h superseded r m ∈ new)
    (effective : effectiveSecret h x'.trace = some secret)
    (positive : 0 ≤ (P.clock x.ticks).toInt + offset) (compact : CompactIsJson P)
    (digests : ∀ key payload, (P.hmac key payload).length = hashLength) :
    ∃ base endpoint content, ∃ window : ℕ,
      lastPost h x'.trace = some (base, endpoint, content) ∧
        accepts P content.kind (secret ++ wordBytes window) m.request.body =
          some content.payload ∧
        let remote := (P.clock x.ticks).toInt + offset
        remote / windowLength ≤ window ∧
          (window : ℤ) ≤ (remote + latency) / windowLength ∧
          (latency < windowLength → (window : ℤ) ≤ remote / windowLength + 1) := by
  have inv := init.reachable before
  have delta := (step_action inv delivered).accepts slot acceptable
  have answer : v.answer (.finish q) = some (v.network.result q) := by
    rw [World.answer, slot]
  have synchronised : Truthful offset latency v'.server.currentTimeDelta :=
    honest.truthful answer (replyDelta_eq_some_iff.mpr ⟨value, acceptable, delta⟩)
  have kept : v'.Inv ∧ v'.Configured :=
    (before.snoc trivial delivered).invariant (I := fun w => w.Inv ∧ w.Configured)
      (fun both _ stepped =>
        ⟨both.1.step stepped, both.2.action (step_action both.1 stepped)⟩)
      ⟨init.inv, init.configured⟩
  have there : (x.Inv ∧ x.Configured) ∧ Truthful offset latency x.server.currentTimeDelta :=
    since.invariant
      (I := fun w => (w.Inv ∧ w.Configured) ∧ Truthful offset latency w.server.currentTimeDelta)
      (fun all honest stepped =>
        ⟨⟨all.1.1.step stepped, all.1.2.action (step_action all.1.1 stepped)⟩,
          honest.step all.1.1 all.2 stepped⟩) ⟨kept, synchronised⟩
  obtain ⟨⟨inv', configured⟩, truthful⟩ := there
  obtain ⟨base, endpoint, content, last, accepted⟩ :=
    configured.accepted inv' compact digests stepped emitted sent effective
  exact ⟨base, endpoint, content, _, last, accepted, truthful.window positive⟩

/-- A post is rejected, and the answer to the time-delta request has arrived. -/
def asked : List Sample.Step :=
  [.call (.setDefaultSecret (List.replicate secretLength 7)), Sample.postByte 1] ++
    Sample.completes 0 Sample.rejected ++ [.arrive 1 (Sample.answered 5)]

/-- The rejected post is sent again after an answer of five seconds, of which two were travelled:
the receiver takes the payload. -/
theorem messages_accepted_after_rejection :
    ∃ x x' : World Platform.sample Bool, ∃ m, ∃ window : ℕ,
      FreeRun World.step Sample.world (asked ++ [.finish 1]) x ∧ x.step .next = some x' ∧
      x'.trace = [.sent false (x.handler false).pendingReply x.network.next m,
        .notified false true] ++ x.trace ∧
      accepts Platform.sample .binary (List.replicate secretLength 7 ++ wordBytes window)
        m.request.body = some [1] ∧
      (1700000002 + 3) / windowLength ≤ (window : ℤ) ∧
      (window : ℤ) ≤ (1700000002 + 3 + 2) / windowLength := by
  have reached : ∃ v, FreeRun World.step Sample.world asked v ∧
      v.network.receiver 1 = some .server ∧ v.network.result 1 = Sample.answered 5 ∧
      ∃ x, v.step (.finish 1) = some x ∧ x.control = .updating [false] ∧ x.ticks = 2 ∧
        effectiveSecret false x.trace = some (List.replicate secretLength 7) ∧
        (lastPost false x.trace).map (fun post => (post.2.2.kind, post.2.2.payload)) =
          some (.binary, [1]) :=
    ⟨_, run_of_isSome (by decide), by decide, by decide, Option.get _ (by decide),
      (Option.some_get _).symm, by decide, by decide, by decide, by decide⟩
  obtain ⟨v, before, slot, result, x, delivered, inLoop, ticks, effective, last⟩ := reached
  have moved : ∃ x' m, x.step .next = some x' ∧
      x'.trace = [.sent false (x.handler false).pendingReply x.network.next m,
        .notified false true] ++ x.trace := by
    refine ⟨{ (x.note (.notified false true)).timestampUpdated false with control := .updating [] },
      _, ?_, trace_timestampUpdated (x.note (.notified false true)) false⟩
    rw [step, iterate, inLoop]
  obtain ⟨x', m, stepped, trace⟩ := moved
  have acceptable : Acceptable Platform.sample (v.network.result 1) ((5 : Nat) : ℤ) := by
    rw [result]
    exact Sample.answered_acceptable (by decide)
  have honest : Honest 3 2 v (.finish 1) := by
    constructor
    · intro timeDelta set
      cases set
    · intro received value answer answers
      rw [World.answer, slot] at answer
      cases answer
      exact ⟨2, by decide, by decide, answers_unique answers acceptable.toAnswers⟩
  have effective' : effectiveSecret false x'.trace = some (List.replicate secretLength 7) := by
    rw [trace]
    exact effective
  have clock : (Platform.sample.clock x.ticks).toInt = 1700000002 := by
    rw [ticks]
    decide
  obtain ⟨base, endpoint, content, window, posted, accepted, low, high, -⟩ :=
    messages_accepted Sample.world_initial before delivered slot acceptable honest .nil stepped
      trace List.mem_cons_self effective' (by rw [clock]; decide) Sample.compact_is_json
      Sha256.length_hmac
  rw [trace] at posted
  rw [show lastPost false x.trace = some (base, endpoint, content) from posted] at last
  obtain ⟨kind, payload⟩ := Prod.mk.inj (Option.some.inj last)
  rw [kind, payload] at accepted
  rw [clock] at low high
  exact ⟨x, x', m, window, before.snoc trivial delivered, stepped, trace, accepted, low, high⟩

end World

end RestApiOut
