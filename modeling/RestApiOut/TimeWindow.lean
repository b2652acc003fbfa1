import RestApiOut.Answer
import RestApiOut.Signing

/-!
# The time window

`hashSuffix` adds a signed delta to an unsigned clock reading modulo `2^64` and divides by 30.
`toNat_hashSuffix` says what that is over the integers; the sum wraps exactly when it is negative
(`window_exact_iff`), which an accepted delta does not exclude by itself.  It cannot be negative
when the delta is an honest difference of two clocks: `windows_synchronised` follows one time-delta
request from the moment it is built to a hash computed with its answer.
-/

namespace RestApiOut

open Transition

variable {P : Platform} {ι : Type}

/-- Seconds in a window. -/
def windowLength : ℤ := 30

/-! ## The sum modulo `2^64` -/

theorem toNat_hashSuffix (currentTimestamp timeDelta : Int64) :
    ((hashSuffix currentTimestamp timeDelta).toNat : ℤ) =
      (currentTimestamp.toInt + timeDelta.toInt) % 2 ^ 64 / windowLength := by
  rw [toNat_hashSuffix_eq, windowNumber, windowLength]
  omega

/-- The unsigned window is the mathematical one while the sum is not negative. -/
theorem toNat_hashSuffix_of_nonneg {currentTimestamp timeDelta : Int64}
    (nonneg : 0 ≤ currentTimestamp.toInt + timeDelta.toInt) :
    ((hashSuffix currentTimestamp timeDelta).toNat : ℤ) =
      (currentTimestamp.toInt + timeDelta.toInt) / windowLength := by
  have t := currentTimestamp.toInt_lt
  have d := timeDelta.toInt_lt
  rw [toNat_hashSuffix, Int.emod_eq_of_lt nonneg (by omega)]

/-- A negative sum is taken `2^64` too high. -/
theorem toNat_hashSuffix_of_neg {currentTimestamp timeDelta : Int64}
    (negative : currentTimestamp.toInt + timeDelta.toInt < 0) :
    ((hashSuffix currentTimestamp timeDelta).toNat : ℤ) =
      (2 ^ 64 + (currentTimestamp.toInt + timeDelta.toInt)) / windowLength := by
  have t := currentTimestamp.le_toInt
  have d := timeDelta.le_toInt
  rw [toNat_hashSuffix, ← Int.add_emod_left, Int.emod_eq_of_lt (by omega) (by omega)]

/-! ## Accepted deltas -/

/-- **An accepted delta gives the mathematical window exactly when the sum is not negative.**
The range test bounds the delta alone, so it cannot exclude a clock reading it outweighs. -/
theorem window_exact_iff (s : Server P ι) {document : P.Document} {s' : Server P ι}
    (accepted : s.parseResponse document = (true, s')) (t : Int64) :
    (-2 ^ 63 ≤ s'.currentTimeDelta.toInt ∧ s'.currentTimeDelta.toInt ≤ 2 ^ 53 - 1) ∧
      (((hashSuffix t s'.currentTimeDelta).toNat : ℤ) =
          (t.toInt + s'.currentTimeDelta.toInt) / windowLength ↔
        0 ≤ t.toInt + s'.currentTimeDelta.toInt) ∧
      (t.toInt + s'.currentTimeDelta.toInt < 0 →
        ((hashSuffix t s'.currentTimeDelta).toNat : ℤ) =
          (2 ^ 64 + (t.toInt + s'.currentTimeDelta.toInt)) / windowLength) := by
  rw [Server.parseResponse_eq] at accepted
  cases parsed : parsedDelta document with
  | none => simp [parsed] at accepted
  | some delta =>
      rw [parsed] at accepted
      cases accepted
      obtain ⟨_, v, -, -, inRange, rfl⟩ := parsedDelta_eq_some_iff.mp parsed
      obtain ⟨low, high⟩ := inRange_iff.mp inRange
      refine ⟨?_, ⟨fun equal => ?_, toNat_hashSuffix_of_nonneg⟩, toNat_hashSuffix_of_neg⟩
      · rw [toInt_toLongLong inRange]
        exact truncate_mem low high
      · by_contra negative
        have unsigned := Int.natCast_nonneg (hashSuffix t (Server.toLongLong v)).toNat
        dsimp only at equal negative
        rw [equal, windowLength] at unsigned
        omega

/-- The server's clock one second behind a client whose clock reads 0: the sum is `2^64 - 1`. -/
theorem accepted_delta_wraps :
    let parsed := Sample.world.server.parseResponse (Sample.timeDeltaAnswer (-1))
    let t : Int64 := 0
    parsed.1 = true ∧ 0 ≤ t.toInt ∧ t.toInt < 2 ^ 62 ∧
      ((hashSuffix t parsed.2.currentTimeDelta).toNat : ℤ) ≠
        (t.toInt + parsed.2.currentTimeDelta.toInt) / windowLength := by
  decide

/-- An answer of minus one minute is accepted, and the window of a present clock is exact. -/
theorem window_exact_of_answer :
    ∃ s' : Server Platform.sample Bool,
      Sample.world.server.parseResponse (Sample.timeDeltaAnswer (-60)) = (true, s') ∧
      s'.currentTimeDelta = -60 ∧
      ((hashSuffix 1700000000 s'.currentTimeDelta).toNat : ℤ) =
        (1700000000 + s'.currentTimeDelta.toInt) / windowLength := by
  refine ⟨(Sample.world.server.parseResponse (Sample.timeDeltaAnswer (-60))).2, rfl, by decide, ?_⟩
  have accepted : Sample.world.server.parseResponse (Sample.timeDeltaAnswer (-60)) = (true, _) :=
    rfl
  have exact_ := window_exact_iff Sample.world.server accepted 1700000000
  exact exact_.2.1.mpr (by decide)

/-! ## One request and its answer -/

/-- A clock reading below `2^53` is carried as it is. -/
theorem toDouble_of_lt {x : Int64} (small : x.toInt.natAbs < 2 ^ 53) :
    Server.toDouble x = x.toInt := by
  have short : x.toInt.natAbs.log2 - 52 = 0 := by
    rcases eq_or_ne x.toInt.natAbs 0 with zero | nonzero
    · rw [zero, Nat.log2_zero]
    · have := (Nat.log2_lt nonzero).mpr small
      omega
  have restored := congrArg (Int.cast : ℤ → ℚ) (Int.sign_mul_natAbs x.toInt)
  rw [Server.toDouble, short]
  simpa [Nat.mod_one] using restored

namespace World

variable {w w' : World P ι} {r : ReplyId} [DecidableEq ι]

/-- A posted reply keeps the slot it is connected to. -/
theorem Action.receiver {e : Event P ι} (action : Action w e w') (posted : r < w.network.next) :
    r < w'.network.next ∧ w'.network.receiver r = w.network.receiver r := by
  have old : r ≠ w.network.next := Nat.ne_of_lt posted
  have after : r < w.network.next + 1 := Nat.lt_succ_of_lt posted
  cases action with
  | postNow | notifyUpdated | serverRetry => simp [note, old, after]
  | @slotRetry h r' q finishing pending rejected =>
      cases clock : w.server.pendingReply with
      | some t =>
          rw [enlist_of_pending (w := ((w.enterSlot h r').takePending h q).spendRetry h q) clock]
          simpa using posted
      | none =>
          rw [enlist_of_idle (w := ((w.enterSlot h r').takePending h q).spendRetry h q) clock]
          simp [old, after]
  | @notifyFailed h rest inLoop =>
      refine ⟨?_, receiver_discardPending (w.note (.notified h false)) h r⟩
      rwa [network_timestampUpdateFailed, next_discardPending]
  | arrived => exact ⟨posted, Network.receiver_arrive _⟩
  | slotOutcome | serverFailed | serverUpdated => exact ⟨posted, Network.receiver_deleteLater⟩
  | postDeferred | postBlocked | setSecret | setDefaultSecret | configure | returned | resumed
  | endUpdated | endFailed | destroyed | slotNull => exact ⟨posted, rfl⟩

/-- A posted reply keeps its slot through a run. -/
theorem Inv.receiver_of_run {es : List (Event P ι)} (inv : w.Inv) (posted : r < w.network.next)
    (run : FreeRun World.step w es w') : w'.network.receiver r = w.network.receiver r := by
  induction run with
  | nil => rfl
  | cons _ stepped _ ih =>
      obtain ⟨posted', kept⟩ := (step_action inv stepped).receiver posted
      exact (ih (inv.step stepped) posted').trans kept

omit [DecidableEq ι] in
theorem body_timeDeltaRequest (c : Core P ι) : c.timeDeltaRequest.body =
    P.toJson (P.ofObject (Server.timestampObject (P.clock c.ticks))) :=
  rfl

/-- The step that asks for the time reads the client's clock once, into the request. -/
theorem Action.asked_cases {e : Event P ι} {new : Trace P ι} {request : Request P}
    (action : Action w e w') (emitted : w'.trace = new ++ w.trace)
    (asked : .asked r request ∈ new) :
    request.body = P.toJson (P.ofObject (Server.timestampObject (P.clock w.ticks))) ∧
      r < w'.network.next ∧ w'.network.receiver r = some .server := by
  have only : ∀ shown : Trace P ι, w'.trace = shown ++ w.trace → .asked r request ∈ shown := by
    intro shown trace
    rwa [← List.append_cancel_right (emitted.symm.trans trace)]
  cases action with
  | @slotRetry h r' q finishing pending rejected =>
      cases clock : w.server.pendingReply with
      | some t =>
          have trace := congrArg (fun w : World P ι => w.trace) (enlist_of_pending
            (w := ((w.enterSlot h r').takePending h q).spendRetry h q) clock h)
          exact absurd (only [_, _, _] trace) (by simp)
      | none =>
          have enlisted := enlist_of_idle
            (w := ((w.enterSlot h r').takePending h q).spendRetry h q) clock h
          have trace := congrArg (fun w : World P ι => w.trace) enlisted
          have mem := only [_, _, _, _] trace
          simp only [List.mem_cons, List.not_mem_nil, or_false, reduceCtorEq, false_or] at mem
          cases mem
          rw [enlisted]
          refine ⟨body_timeDeltaRequest _, ?_, ?_⟩ <;> simp
  | @serverRetry r' finishing refused left =>
      have mem := only [_, _] (trace_ask ((w.enterServer r').discard r') _)
      simp only [List.mem_cons, List.not_mem_nil, or_false, reduceCtorEq] at mem
      cases mem
      refine ⟨body_timeDeltaRequest _, ?_, ?_⟩ <;> simp
  | configure | returned | resumed | arrived | destroyed => exact absurd (only [] rfl) (by simp)
  | postBlocked | setSecret | setDefaultSecret | endUpdated | endFailed | slotNull =>
      exact absurd (only [_] rfl) (by simp)
  | postDeferred | notifyFailed | slotOutcome | serverFailed =>
      exact absurd (only [_, _] rfl) (by simp)
  | serverUpdated => exact absurd (only [_, _, _] rfl) (by simp)
  | @postNow h endpoint content =>
      exact absurd (only [_, _] (trace_timestampUpdated (w.beginPost h endpoint content) h))
        (by simp)
  | @notifyUpdated h =>
      exact absurd (only [_, _] (trace_timestampUpdated (w.note (.notified h true)) h)) (by simp)

/-- The server's slot takes an acceptable answer. -/
theorem Action.accepts {v : ℚ} (action : Action w (.finish r) w')
    (slot : w.network.receiver r = some .server)
    (acceptable : Acceptable P (w.network.result r) v) :
    w'.server.currentTimeDelta = Server.toLongLong v := by
  have taken := replyDelta_eq_some_iff.mpr ⟨v, acceptable, rfl⟩
  cases action with
  | slotNull finishing | slotOutcome finishing | slotRetry finishing =>
      cases slot.symm.trans finishing.receiver
  | serverRetry finishing refused | serverFailed finishing refused =>
      cases taken.symm.trans refused
  | serverUpdated finishing accepted =>
      cases taken.symm.trans accepted
      rfl

/-- **The client signs with the window of the server's clock.**  A request built at client time `t₀`
is answered with `s₀ - t₀` and status OK, the server's clock having read `s₀ - latency` when it was
built; `elapsed` seconds after it was built the client reads `now` and computes a hash.  Its window
is that of `latency` seconds past the server's clock, whichever of the two clocks is ahead. -/
theorem windows_synchronised {u u' v v' : World P ι} {es es' : List (Event P ι)} {e : Event P ι}
    {new : Trace P ι} {request : Request P} {now : Int64} {t₀ s₀ latency elapsed : ℤ}
    (init : w.Initial) (before : FreeRun World.step w es u) (built : u.step e = some u')
    (emitted : u'.trace = new ++ u.trace) (asked : .asked r request ∈ new)
    (clientClock : (P.clock u.ticks).toInt = t₀)
    (underway : FreeRun World.step u' es' v) (delivered : v.step (.finish r) = some v')
    (answers : Answers P (v.network.result r) ((s₀ - t₀ : ℤ) : ℚ))
    (representable : s₀ - t₀ ≤ 2 ^ 53 - 1) (serverClock : 0 ≤ s₀)
    (travelled : 0 ≤ latency) (arrived : latency ≤ elapsed)
    (reading : now.toInt = t₀ + elapsed) :
    (∃ carried : JsonObject, request.body = P.toJson (P.ofObject carried) ∧
        (t₀.natAbs < 2 ^ 53 → carried.members = [("timestamp", .double t₀)])) ∧
      v'.server.currentTimeDelta.toInt = s₀ - t₀ ∧
      ∃ window : UInt64, window = hashSuffix now v'.server.currentTimeDelta ∧
        (∀ own default secret payload, Signs own default secret →
          (calculateHash P own default now v'.server.currentTimeDelta payload).1 =
            P.hmac (secret ++ wordBytes window.toNat) payload) ∧
        let serverTime := s₀ - latency + elapsed
        (window.toNat : ℤ) = (serverTime + latency) / windowLength ∧
          (latency = 0 → (window.toNat : ℤ) = serverTime / windowLength) ∧
          serverTime / windowLength ≤ window.toNat ∧
          (latency < windowLength → (window.toNat : ℤ) ≤ serverTime / windowLength + 1) := by
  have inv := init.reachable before
  obtain ⟨body, posted, slot⟩ := (step_action inv built).asked_cases emitted asked
  have inv' := inv.step built
  have receiver := (inv'.receiver_of_run posted underway).trans slot
  have invDelivered : v.Inv := underway.invariant (fun inv _ stepped => Inv.step inv stepped) inv'
  -- a client clock is below `2^63` and a server clock not negative, so the range test passes
  have above := (P.clock u.ticks).toInt_lt
  have inRange : InRange ((s₀ - t₀ : ℤ) : ℚ) := by
    rw [inRange_iff]
    exact ⟨Int.cast_le.mpr (by omega), Int.cast_le.mpr representable⟩
  have delta := (step_action invDelivered delivered).accepts receiver ⟨answers, inRange⟩
  have value : v'.server.currentTimeDelta.toInt = s₀ - t₀ := by
    rw [delta, toInt_toLongLong inRange, truncate_intCast]
  refine ⟨⟨_, body, fun small => ?_⟩, value, hashSuffix now v'.server.currentTimeDelta, rfl,
    fun own default secret payload signs => ?_, ?_⟩
  · rw [Server.timestampObject, toDouble_of_lt (clientClock ▸ small), clientClock]
  · rw [← littleEndian_eq]
    exact calculateHash_eq_hmac signs _ _ _
  have sum : now.toInt + v'.server.currentTimeDelta.toInt = s₀ + elapsed := by
    rw [value, reading]
    ring
  have nonneg : 0 ≤ now.toInt + v'.server.currentTimeDelta.toInt := by omega
  have window := toNat_hashSuffix_of_nonneg nonneg
  rw [sum] at window
  simp only [window, windowLength]
  omega

/-- A request built at 1700000001 and answered 7 seconds later by a server 5 seconds ahead. -/
theorem windows_synchronised_after_rejection :
    ∃ v' : World Platform.sample Bool, ∃ window : UInt64,
      FreeRun World.step Sample.world
        ([Sample.secret, Sample.postByte 1] ++ Sample.completes 0 Sample.rejected ++
          Sample.completes 1 (Sample.answered 5)) v' ∧
      v'.server.currentTimeDelta.toInt = 5 ∧
      window = hashSuffix 1700000021 v'.server.currentTimeDelta ∧
      (∀ payload, (calculateHash Platform.sample [] (List.replicate hmacBlockSize 7) 1700000021
          v'.server.currentTimeDelta payload).1 =
        Sha256.hmac (List.replicate secretLength 7 ++ wordBytes window.toNat) payload) ∧
      (window.toNat : ℤ) = (1700000019 + 7) / windowLength := by
  let early : List Sample.Step := [Sample.secret, Sample.postByte 1, .arrive 0 Sample.rejected]
  let asking := early ++ [.finish 0]
  let answered := asking ++ [.arrive 1 (Sample.answered 5)]
  have before : FreeRun World.step Sample.world early (Sample.reached early) :=
    .cons trivial rfl (.cons trivial rfl (.cons trivial rfl .nil))
  have built : (Sample.reached early).step (.finish 0) = some (Sample.reached asking) := rfl
  have emitted : (Sample.reached asking).trace = [.registered false, .asked 1 _, .retry false 0,
      .slot false 0 (some 0)] ++ (Sample.reached early).trace := rfl
  have clock : (Platform.sample.clock (Sample.reached early).ticks).toInt = 1700000001 := by decide
  have underway : FreeRun World.step (Sample.reached asking) [.arrive 1 (Sample.answered 5)]
      (Sample.reached answered) := .cons trivial rfl .nil
  have enabled : ((Sample.reached answered).step (.finish 1)).isSome := by decide
  obtain ⟨v', delivered⟩ := Option.isSome_iff_exists.mp enabled
  have answers : Answers Platform.sample ((Sample.reached answered).network.result 1)
      ((1700000006 - 1700000001 : ℤ) : ℚ) := by
    have acceptable := Sample.answered_acceptable (by decide : 5 < 8)
    have result : (Sample.reached answered).network.result 1 = Sample.answered 5 := rfl
    rw [result]
    simpa using acceptable.toAnswers
  have holds : Holds (List.replicate hmacBlockSize 7) (List.replicate secretLength 7) :=
    ⟨rfl, rfl⟩
  obtain ⟨-, delta, window, suffix, hash, exact_, -⟩ :=
    windows_synchronised Sample.world_initial before built emitted
      (List.mem_cons_of_mem _ List.mem_cons_self) clock underway delivered answers (by decide)
      (by decide) (by decide : (0 : ℤ) ≤ 7) (by decide : (7 : ℤ) ≤ 20)
      (by decide : (1700000021 : Int64).toInt = 1700000001 + 20)
  have run := (before.snoc trivial built).append (underway.snoc trivial delivered)
  exact ⟨v', window, run, delta.trans (by norm_num), suffix,
    fun payload => hash _ _ _ payload (.default rfl holds), exact_.trans (by norm_num)⟩

end World

end RestApiOut
