import Mathlib.Algebra.BigOperators.Group.Finset.Basic
import RestApiOut.WebHook.Conclusions
import RestApiOut.Wire

/-!
# Hooks settle

Left to themselves, hooks run to an end: `Hooks.budget` weighs the retries that are left, the timers
that run, the replies on the wire and the callback that is running, and every step but a call or a
setter lowers it.  Where nothing can happen any more every hook is free.

`hooks_settle` puts this together with `hook_calls_concluded`: if the applications stop calling,
each call that was made has its one conclusion after at most `budget` steps, whatever the network
answers and however timers, replies and callbacks are interleaved.  The one way out would be a key
that is never filled, which takes an empty text for the time.
-/

namespace RestApiOut

namespace Wh

open Transition

variable {P : WebHookPlatform} {κ : Type}

/-! ## The budget -/

/-- What a reply is worth to its slot.  A request for the time may start the timer of a message. -/
def Slot.weight : Slot → Nat
  | .messageResponseReceived => 3
  | .timestampReplyReceived => 7

def replyWeight (x : Reply (κ × Slot)) : Nat :=
  (if x.result.isSome then 0 else 1) +
    match x.receiver with
    | some (.handler (_, slot)) => slot.weight
    | some .server | none => 0

/-- A timer posts a request, and a retry starts a timer. -/
def WebHook.cost (x : WebHook P) : Nat :=
  7 * x.remainingRetries + (if x.resendTimer then 5 else 0) + if x.timeDeltaTimer then 9 else 0

def HookControl.cost : HookControl κ → Nat
  | .loop | .spinning => 0
  | .response _ | .failed _ | .unreadable _ => 1
  | .jsonResponse _ _ => 2
  | .timeDeltaUpdated _ => 6

namespace Hooks

/-- What the hooks and the replies on the wire may still take. -/
def load [Fintype κ] (s : Hooks P κ) : Nat :=
  ∑ k, (s.hook k).cost + s.network.weigh replyWeight

/-- A bound on the steps to come, if nobody calls a hook. -/
def budget [Fintype κ] (s : Hooks P κ) : Nat := s.load + s.control.cost

variable {s s' u : Hooks P κ} {k : κ} {r : ReplyId}

/-- Nobody calls a hook, and nothing is set. -/
def Quiet (_ : Hooks P κ) : HookEvent P κ → Prop
  | .send _ _ _ | .forceTimeDeltaAdjustment _ | .setTimestampSecret _ | .setTimestampUrl _
  | .setTimeDelta _ => False
  | .ret | .resendTimeout _ | .timeDeltaTimeout _ | .arrive _ _ | .finish _
  | .destroyReply _ => True

/-! ## Every step lowers the budget -/

section Budget

variable [Fintype κ]

/-- A step that leaves hooks and replies as they are in `u`. -/
theorem budget_lt_of (u : Hooks P κ) (hook : s'.hook = u.hook) (network : s'.network = u.network)
    (lower : u.load + s'.control.cost < s.budget) : s'.budget < s.budget := by
  rw [budget, load, hook, network]
  exact lower

variable [DecidableEq κ]

theorem load_setHook (s : Hooks P κ) (k : κ) (x : WebHook P) :
    (s.setHook k x).load + (s.hook k).cost = s.load + x.cost := by
  have others : ∑ j ∈ Finset.univ.erase k, ((s.setHook k x).hook j).cost =
      ∑ j ∈ Finset.univ.erase k, (s.hook j).cost := by
    refine Finset.sum_congr rfl fun j member => ?_
    rw [hook_setHook_of_ne s x (Finset.ne_of_mem_erase member)]
  have after := Finset.add_sum_erase Finset.univ (fun j => ((s.setHook k x).hook j).cost)
    (Finset.mem_univ k)
  have before := Finset.add_sum_erase Finset.univ (fun j => (s.hook j).cost) (Finset.mem_univ k)
  have wire : (s.setHook k x).network = s.network := rfl
  simp only [hook_setHook_self] at after
  rw [load, load, wire]
  omega

theorem load_posted (s : Hooks P κ) (k : κ) (slot : Slot) (o : HookObservation P κ) :
    (s.posted k slot o).load = s.load + (1 + slot.weight) := by
  have hooks : ∑ j, ((s.posted k slot o).hook j).cost = ∑ j, (s.hook j).cost := by
    refine Finset.sum_congr rfl fun j _ => ?_
    rcases eq_or_ne j k with rfl | other
    · rw [hook_posted_self]
      rfl
    · rw [hook_posted_of_ne s slot o other]
  have wire : (s.posted k slot o).network.weigh replyWeight =
      s.network.weigh replyWeight + (1 + slot.weight) := Network.weigh_post _
  rw [load, load, hooks, wire, Nat.add_assoc]

/-- A message that is not sent costs nothing at all. -/
theorem budget_doSend_le (s : Hooks P κ) (k : κ) : (s.doSend k).budget ≤ s.budget + 4 := by
  rcases doSend_cases s k with ⟨-, spins⟩ | ⟨key, -, sends⟩
  · rw [spins]
    exact Nat.le_add_right_of_le (Nat.le_add_right s.load _)
  · have posted := load_posted s k .messageResponseReceived (.message k s.network.next
      (messageRequest (s.hook k).currentUrl (s.hook k).currentPayload key))
    rw [sends, budget, posted, budget]
    exact (Nat.add_right_comm _ _ _).le

/-- A reply that has finished and been read no longer weighs. -/
theorem load_read {slot : Slot} (live : r ∈ s.network.live)
    (answer : (s.network.reply r).result = some (s.network.result r))
    (receiver : s.network.receiver r = some (.handler (k, slot))) :
    (s.read k r).load + slot.weight = s.load := by
  have hooks : ∑ j, ((s.read k r).hook j).cost = ∑ j, (s.hook j).cost := by
    refine Finset.sum_congr rfl fun j _ => ?_
    rcases eq_or_ne j k with rfl | other
    · rw [hook_read_self]
      rfl
    · rw [hook_read_of_ne s r other]
  have discarded : (s.read k r).network.weigh replyWeight =
      (s.network.retire r).weigh replyWeight := Network.weigh_deleteLater replyWeight fun _ => rfl
  have retired := Network.weigh_retire replyWeight live
  have weight : replyWeight (s.network.reply r) = slot.weight := by
    unfold Network.receiver at receiver
    rw [replyWeight, answer, receiver]
    exact Nat.zero_add _
  rw [load, load, hooks, discarded]
  omega

theorem load_retryLater (left : 0 < (s.hook k).remainingRetries) (r : ReplyId) (resend : Bool) :
    (s.retryLater k r resend).load ≤ s.load + 2 := by
  have moved : (s.retryLater k r resend).load + (s.hook k).cost =
      s.load + ((s.retryLater k r resend).hook k).cost := by
    rw [hook_retryLater_self]
    exact load_setHook s k _
  have timers : ∀ a b c : Bool, (if (a || c) = true then 5 else 0) +
      (if (b || !c) = true then 9 else 0) ≤
        (if a = true then 5 else 0) + (if b = true then 9 else 0) + 9 := by decide
  have started := timers (s.hook k).resendTimer (s.hook k).timeDeltaTimer resend
  rw [hook_retryLater_self] at moved
  simp only [WebHook.cost] at moved
  omega

/-- A slot uses up more than it sets going. -/
theorem Answered.budget_lt {slot : Slot} (answered : s.Answered k r slot s')
    (live : r ∈ s.network.live) (loop : s.control = .loop)
    (answer : (s.network.reply r).result = some (s.network.result r))
    (receiver : s.network.receiver r = some (.handler (k, slot))) : s'.budget < s.budget := by
  have read := load_read live answer receiver
  have left : (s.hook k).remainingRetries = ((s.read k r).hook k).remainingRetries := by
    rw [hook_read_self]
  have idle : s.budget = s.load := by
    rw [budget, loop]
    rfl
  -- what is left to do in a callback is worth less than the reply was
  have calls : ∀ cost < slot.weight, (s.read k r).load + cost < s.budget := by
    intro cost less
    omega
  have retries : ∀ resend, 0 < (s.hook k).remainingRetries → 2 < slot.weight →
      ((s.read k r).retryLater k r resend).budget < s.budget := by
    intro resend more heavy
    have later := load_retryLater (left ▸ more) r resend
    have quiet : ((s.read k r).retryLater k r resend).control.cost = 0 := by
      change s.control.cost = 0
      rw [loop]
      rfl
    rw [budget, quiet]
    omega
  cases answered with
  | json => exact budget_lt_of (s.read k r) rfl rfl (calls 2 (by decide))
  | text => exact budget_lt_of (s.read k r) rfl rfl (calls 1 (by decide))
  | deny denied more => exact retries false (Nat.lt_of_lt_of_le more (Nat.sub_le _ 1)) (by decide)
  | again failed more => exact retries true more (by decide)
  | updated => exact budget_lt_of (s.read k r) rfl rfl (calls 6 (by decide))
  | unreadable => exact budget_lt_of (s.read k r) rfl rfl (calls 1 (by decide))
  | askAgain failed more => exact retries false more (by decide)
  | fail => exact budget_lt_of (s.read k r) rfl rfl (calls 1 (by cases slot <;> decide))

theorem Move.budget_lt {e : HookEvent P κ} (move : s.Move e s') (held : s.Held)
    (quiet : Quiet s e) : s'.budget < s.budget := by
  cases move with
  | send | force => exact quiet.elim
  | configure setter =>
      cases e with
      | setTimestampSecret | setTimestampUrl | setTimeDelta => exact quiet.elim
      | send | forceTimeDeltaAdjustment | ret | resendTimeout | timeDeltaTimeout | arrive | finish
      | destroyReply => exact setter.elim
  | @report k receivedData called =>
      refine budget_lt_of s rfl rfl ?_
      rw [budget, called]
      exact Nat.lt_succ_self _
  | @clear k called =>
      have cleared : (s.setHook k { s.hook k with currentUrl := P.emptyUrl }).load = s.load :=
        Nat.add_right_cancel (load_setHook s k _)
      refine budget_lt_of (s.setHook k _) rfl rfl ?_
      rw [cleared, budget]
      rcases called with called | called
      · rw [called]
        exact Nat.lt_succ_self _
      · rw [called]
        exact Nat.lt_succ_self _
  | @leave k called =>
      refine budget_lt_of s rfl rfl ?_
      rw [budget]
      rcases called with called | ⟨called, -⟩
      · rw [called]
        exact Nat.lt_succ_self _
      · rw [called]
        exact Nat.lt_add_of_pos_right (Nat.succ_pos 5)
  | @resend k called =>
      have timer := load_setHook s k { s.hook k with resendTimer := true }
      have starts : ({ s.hook k with resendTimer := true } : WebHook P).cost ≤
          (s.hook k).cost + 5 := by
        simp only [WebHook.cost, if_true]
        omega
      refine budget_lt_of (s.setHook k _) rfl rfl ?_
      rw [budget, called]
      change _ + 0 < s.load + 6
      omega
  | @resendTimeout k loop timer =>
      have stopped := load_setHook s k { s.hook k with resendTimer := false }
      have posts := budget_doSend_le (s.setHook k { s.hook k with resendTimer := false }) k
      have worth : ({ s.hook k with resendTimer := false } : WebHook P).cost + 5 =
          (s.hook k).cost := by
        simp only [WebHook.cost, timer, if_true, Bool.false_eq_true, if_false]
        omega
      have idle : (s.setHook k { s.hook k with resendTimer := false }).budget =
          (s.setHook k { s.hook k with resendTimer := false }).load + s.control.cost := rfl
      have before : s.budget = s.load + s.control.cost := rfl
      omega
  | @timeDeltaTimeout k loop timer =>
      have stopped := load_setHook s k { s.hook k with timeDeltaTimer := false }
      have worth : ({ s.hook k with timeDeltaTimer := false } : WebHook P).cost + 9 =
          (s.hook k).cost := by
        simp only [WebHook.cost, timer, if_true, Bool.false_eq_true, if_false]
      have posted : ((s.setHook k { s.hook k with timeDeltaTimer := false }).doTimestampAdjustment
          k).load = (s.setHook k { s.hook k with timeDeltaTimer := false }).load + (1 + 7) :=
        load_posted _ k .timestampReplyReceived _
      refine budget_lt_of _ rfl rfl ?_
      rw [posted, budget]
      change _ + s.control.cost < _
      omega
  | @arrive r result live first =>
      have arrives := Network.weigh_arrive replyWeight result live
      unfold Network.arrived at first
      simp only [replyWeight, first, Option.isSome_some, if_true, Bool.false_eq_true,
        if_false] at arrives
      unfold budget load
      dsimp only
      omega
  | finish loop answer own receiver answered =>
      exact answered.budget_lt (held.live _ _ own).1 loop answer receiver

end Budget

/-! ## Where hooks settle -/

variable [DecidableEq κ]

theorem doSend_control (timed : ∀ n delta, P.dateTime n delta ≠ []) (s : Hooks P κ) (k : κ) :
    (s.doSend k).control = s.control := by
  rcases doSend_cases s k with ⟨unfilled, -⟩ | ⟨key, -, sends⟩
  · have nonempty : (s.hook k).currentSecret ++ P.dateTime s.ticks s.globalTimeDelta ≠ [] :=
      List.append_ne_nil_of_right_ne_nil _ (timed s.ticks s.globalTimeDelta)
    obtain ⟨key, made⟩ := signingKey_made nonempty
    cases made.symm.trans unfilled
  · rw [sends]
    rfl

/-- The thread never spins if the time has a text. -/
theorem Move.running {e : HookEvent P κ} (move : s.Move e s')
    (timed : ∀ n delta, P.dateTime n delta ≠ []) (running : s.control ≠ .spinning) :
    s'.control ≠ .spinning := by
  cases move with
  | send =>
      unfold Hooks.send
      rw [doSend_control timed]
      exact running
  | resendTimeout =>
      rw [doSend_control timed]
      exact running
  | force | timeDeltaTimeout | arrive => exact running
  | configure setter network hook control =>
      rw [control]
      exact running
  | report | clear | leave | resend => exact fun spins => by cases spins
  | finish loop answer own receiver answered =>
      cases answered with
      | json | text | updated | unreadable | fail => exact fun spins => by cases spins
      | deny | again | askAgain => exact running

/-- What the settling argument needs of a state. -/
structure Sound (s : Hooks P κ) : Prop where
  ordered : s.Ordered
  running : s.control ≠ .spinning

theorem serial_of_quiet {e : HookEvent P κ} (quiet : Quiet s e) : Serial s e := by
  cases e with
  | send | forceTimeDeltaAdjustment | setTimestampSecret | setTimestampUrl | setTimeDelta =>
      exact quiet.elim
  | ret | resendTimeout | timeDeltaTimeout | arrive | finish | destroyReply => trivial

theorem Sound.step {e : HookEvent P κ} (sound : s.Sound)
    (timed : ∀ n delta, P.dateTime n delta ≠ []) (serial : Serial s e)
    (stepped : s.step e = some s') : s'.Sound :=
  ⟨sound.ordered.step serial stepped, (sound.ordered.held.move stepped).running timed sound.running⟩

/-- **Hooks that can do nothing more are free.** -/
theorem Sound.free_of_stuck (sound : s.Sound) (stuck : Stuck Hooks.step Quiet s) (k : κ) :
    s.Free k := by
  have returns : s.return_ = none := stuck .ret trivial
  have loop : s.control = .loop := by
    cases control : s.control with
    | loop => rfl
    | spinning => exact absurd control sound.running
    | jsonResponse | response | failed | unreadable => simp [return_, control] at returns
    | timeDeltaUpdated =>
        simp only [return_, control] at returns
        split at returns
        · cases returns
        · cases returns
  have quiet : ∀ r, r ∉ s.network.live := by
    intro r live
    cases arrived : s.network.arrived r with
    | false =>
        have arrives := stuck (.arrive r .unfinished) trivial
        simp [Hooks.step, live, arrived] at arrives
    | true =>
        have finishes := stuck (.finish r) trivial
        obtain ⟨j, slot, receiver, -⟩ := sound.ordered.held.own r live
        rw [Hooks.step, if_pos ⟨loop, live, arrived⟩, deliver, receiver] at finishes
        cases slot with
        | messageResponseReceived => cases finishes
        | timestampReplyReceived => cases finishes
  have nothing : (s.hook k).pendingReply = none := by
    cases pending : (s.hook k).pendingReply with
    | none => rfl
    | some r => exact absurd (sound.ordered.held.live k r pending).1 (quiet r)
  have resends := stuck (.resendTimeout k) trivial
  have asks := stuck (.timeDeltaTimeout k) trivial
  simp only [Hooks.step, loop, true_and, ite_eq_right_iff, reduceCtorEq, imp_false,
    Bool.not_eq_true] at resends asks
  refine ⟨?_, ?_⟩
  · rw [WebHook.waits, nothing, resends, asks]
  · rw [loop]
    rfl

theorem calls_cons {o : HookObservation P κ} {t : List (HookObservation P κ)}
    (send : o.isSend k = false) (force : o.isForce k = false) :
    sends k (o :: t) + forces k (o :: t) = sends k t + forces k t := by
  rw [sends, forces, List.countP_cons_of_neg (by simp [send]),
    List.countP_cons_of_neg (by simp [force])]
  rfl

/-- Only the application calls. -/
theorem Move.calls {e : HookEvent P κ} (move : s.Move e s') (quiet : Quiet s e) (k : κ) :
    sends k s'.trace + forces k s'.trace = sends k s.trace + forces k s.trace := by
  cases move with
  | send | force => exact quiet.elim
  | configure setter network hook control trace => rw [trace]
  | clear | leave | resend | arrive => rfl
  | report | timeDeltaTimeout => exact calls_cons rfl rfl
  | @resendTimeout j loop timer =>
      rcases doSend_cases (s.setHook j { s.hook j with resendTimer := false }) j with
        ⟨-, spins⟩ | ⟨key, -, sends⟩
      · rw [spins]
        rfl
      · rw [sends]
        exact calls_cons rfl rfl
  | finish loop answer own receiver answered =>
      cases answered with
      | json | text | deny | again | updated | unreadable | askAgain | fail =>
          exact calls_cons rfl rfl

/-- **Every call is concluded.** In serial use, and if the time has a text, hooks that are left to
themselves take at most as many more steps as the budget says; when nothing can happen any more
every hook is free and has had exactly one conclusion for each of the calls made, and there they
arrive. -/
theorem hooks_settle [Fintype κ] {es : List (HookEvent P κ)}
    (timed : ∀ n delta, P.dateTime n delta ≠ []) (init : s.Initial)
    (run : Run step Serial s es s') :
    (∀ fs t, Run step Quiet s' fs t → fs.length + t.budget ≤ s'.budget ∧
      (Stuck step Quiet t → ∀ k, t.Free k ∧
        conclusions k t.trace = sends k s'.trace + forces k s'.trace)) ∧
      ∃ fs t, Run step Quiet s' fs t ∧ Stuck step Quiet t := by
  have keep : ∀ {u v : Hooks P κ} {e : HookEvent P κ}, u.Sound → Serial u e →
      u.step e = some v → v.Sound := fun sound serial stepped => sound.step timed serial stepped
  have keep' : ∀ {u v : Hooks P κ} {e : HookEvent P κ}, u.Sound → Quiet u e →
      u.step e = some v → v.Sound := fun sound quiet => keep sound (serial_of_quiet quiet)
  have fall : ∀ {u v : Hooks P κ} {e : HookEvent P κ}, u.Sound → Quiet u e →
      u.step e = some v → v.budget < u.budget := fun sound quiet stepped =>
    (sound.ordered.held.move stepped).budget_lt sound.ordered.held quiet
  have running : s.control ≠ .spinning := by
    rw [init.control]
    exact fun spins => by cases spins
  have sound := run.invariant keep ⟨init.ordered, running⟩
  refine ⟨fun fs t later => ⟨later.length_add_rank_le keep' fall sound, fun stuck k => ?_⟩,
    exists_run_stuck keep' fall sound⟩
  have ended : t.Sound := later.invariant keep' sound
  have whole := run.append (later.mono fun _ _ quiet => serial_of_quiet quiet)
  have free := ended.free_of_stuck stuck k
  have called : t.Sound ∧ sends k t.trace + forces k t.trace =
      sends k s'.trace + forces k s'.trace := by
    refine later.invariant (I := fun u => u.Sound ∧ sends k u.trace + forces k u.trace =
      sends k s'.trace + forces k s'.trace)
      (fun both quiet stepped => ⟨keep' both.1 quiet stepped, ?_⟩) ⟨sound, rfl⟩
    exact ((both.1.ordered.held.move stepped).calls quiet k).trans both.2
  rw [← called.2]
  exact ⟨free, concluded_of_free init whole ended.running free⟩

/-- Both hooks have sent, and one has been denied: at most 48 steps are left. -/
theorem hooks_settle_after_sends :
    ∃ s', Run step Serial Sample.hooks
        ([Sample.sends true 5, Sample.sends false 7] ++ Sample.replies 0 Sample.denied) s' ∧
      s'.budget = 48 ∧ ∃ fs t, Run step Quiet s' fs t ∧ Stuck step Quiet t :=
  ⟨_, run_of_isSome (by decide), by decide,
    (hooks_settle Sample.timed Sample.hooks_initial (run_of_isSome (by decide))).2⟩

end Hooks

end Wh

end RestApiOut
