import RestApiOut.Termination
import Mathlib.Algebra.BigOperators.Group.Finset.Piecewise
import Mathlib.Algebra.BigOperators.Ring.Finset

/-!
# Traffic

However the library is misused, it cannot be made to flood the network: all requests it ever makes,
messages and time-delta requests together, are at most five for each post.

A post buys its handler one retry (`World.credit`), a retry buys at most one update, and an update
is `numberRetries + 1` requests.  `credit_action` is the handlers' side of the bargain;
`Solvent.action` adds the server's.
-/

namespace RestApiOut

open Transition

variable {P : Platform} {ι : Type}

def Observation.isAsked : Observation P ι → Bool
  | .asked _ _ => true
  | _ => false

/-- A request is handed to the network. -/
def Observation.isRequest : Observation P ι → Bool
  | .sent _ _ _ _ | .asked _ _ => true
  | _ => false

/-- The number of time-delta requests made. -/
def asks (t : Trace P ι) : Nat := t.countP Observation.isAsked

/-- The number of requests made. -/
def requests (t : Trace P ι) : Nat := t.countP Observation.isRequest

@[simp] theorem asks_nil : asks ([] : Trace P ι) = 0 := rfl

@[simp] theorem asks_cons (o : Observation P ι) (t : Trace P ι) :
    asks (o :: t) = asks t + if o.isAsked then 1 else 0 :=
  List.countP_cons

@[simp] theorem requests_nil : requests ([] : Trace P ι) = 0 := rfl

@[simp] theorem requests_cons (o : Observation P ι) (t : Trace P ι) :
    requests (o :: t) = requests t + if o.isRequest then 1 else 0 :=
  List.countP_cons

variable [DecidableEq ι]

/-- Every request is a message of one handler or asks for the time. -/
theorem requests_eq [Fintype ι] (t : Trace P ι) :
    requests t = ∑ h, messages h t + asks t := by
  induction t with
  | nil => simp
  | cons o past ih =>
      have sum : ∑ h, messages h (o :: past) =
          ∑ h, messages h past + ∑ h, if o.isSent h then 1 else 0 := by
        simp only [messages_cons, Finset.sum_add_distrib]
      rw [requests_cons, asks_cons, sum, ih]
      cases o with
      | sent k =>
          have one : ∑ h : ι, (if k = h then 1 else 0) = 1 := Fintype.sum_ite_eq k _
          simp only [Observation.isRequest, Observation.isAsked, Observation.isSent,
            decide_eq_true_eq, one, if_true, Bool.false_eq_true, if_false]
          omega
      | asked =>
          simp [Observation.isRequest, Observation.isAsked, Observation.isSent]
          omega
      | posted | slot | outcome | retry | registered | answered | accepted | notifying | notified
      | released | secretSet | defaultSecretSet =>
          simp [Observation.isRequest, Observation.isAsked, Observation.isSent]

namespace World

variable {w w' : World P ι} {h k : ι} {q r : ReplyId}

/-- Every reply the network handed out answers to a request on the trace. -/
def Counted (w : World P ι) : Prop := w.network.next = requests w.trace

omit [DecidableEq ι] in
theorem Initial.counted (init : w.Initial) : w.Counted := by
  rw [Counted, init.network, init.trace]
  rfl

omit [DecidableEq ι] in
theorem Counted.of_frame (counted : w.Counted) (next : w'.network.next = w.network.next)
    (trace : requests w'.trace = requests w.trace) : w'.Counted := by
  rw [Counted, next, trace]
  exact counted

theorem Counted.action {e : Event P ι} (counted : w.Counted) (action : Action w e w') :
    w'.Counted := by
  have count : w.network.next = requests w.trace := counted
  cases action with
  | postNow | notifyUpdated | serverRetry =>
      simp [Counted, count, Observation.isRequest, note]
  | @slotRetry h r q finishing pending rejected =>
      cases clock : w.server.pendingReply with
      | some t =>
          rw [enlist_of_pending (w := ((w.enterSlot h r).takePending h q).spendRetry h q) clock]
          simp [Counted, count, Observation.isRequest]
      | none =>
          rw [enlist_of_idle (w := ((w.enterSlot h r).takePending h q).spendRetry h q) clock]
          simp [Counted, count, Observation.isRequest]
  | notifyFailed => exact counted.of_frame (next_discardPending _ _) rfl
  | postDeferred | postBlocked | setSecret | setDefaultSecret | configure | returned | resumed
  | endUpdated | endFailed | arrived | destroyed | slotNull | slotOutcome | serverFailed
  | serverUpdated => exact counted.of_frame rfl rfl

/-- The retries a handler may still spend; before its first post it has nothing to spend them on. -/
def credit (w : World P ι) (h : ι) : Nat :=
  if posts h w.trace = 0 then 0 else (w.handler h).retriesRemaining

theorem credit_of_frame (same : posts k w'.trace = posts k w.trace)
    (retries : (w'.handler k).retriesRemaining = (w.handler k).retriesRemaining) :
    w'.credit k + posts k w.trace ≤ w.credit k + posts k w'.trace := by
  rw [credit, credit, same, retries]

/-- A post gives its handler one retry. -/
theorem credit_post (h : ι) (endpoint : String) (content : Content P)
    (same : posts k w'.trace = posts k (w.beginPost h endpoint content).trace)
    (retries : (w'.handler k).retriesRemaining =
      ((w.beginPost h endpoint content).handler k).retriesRemaining) :
    w'.credit k + posts k w.trace ≤ w.credit k + posts k w'.trace := by
  rw [trace_beginPost, posts_cons] at same
  rw [retriesRemaining_beginPost] at retries
  rcases eq_or_ne h k with rfl | mine
  · have more : posts h w'.trace = posts h w.trace + 1 := by
      rw [same]
      simp [Observation.isPosted]
    rw [if_pos rfl] at retries
    rw [credit, if_neg (by omega), retries]
    omega
  · have unposted : posts k w'.trace = posts k w.trace := by
      rw [same]
      simp [Observation.isPosted, mine]
    rw [if_neg (Ne.symm mine)] at retries
    exact credit_of_frame unposted retries

/-- Only a post gives a handler a retry. -/
theorem credit_action {e : Event P ι} (action : Action w e w') (k : ι) :
    w'.credit k + posts k w.trace ≤ w.credit k + posts k w'.trace := by
  cases action with
  | @postNow h endpoint content =>
      refine credit_post h endpoint content ?_ ?_
      · simp [Observation.isPosted]
      · rw [retriesRemaining_timestampUpdated]
  | @postDeferred h endpoint content | @postBlocked h j endpoint content =>
      exact credit_post h endpoint content rfl rfl
  | @slotRetry h r q finishing pending rejected =>
      have unposted : posts k ((((w.enterSlot h r).takePending h q).spendRetry h q).enlist
          h).trace = posts k w.trace := by
        simp [Observation.isPosted]
      have spent : (((((w.enterSlot h r).takePending h q).spendRetry h q).enlist h).handler
          k).retriesRemaining ≤ (w.handler k).retriesRemaining := by
        simp only [handler_enlist, retriesRemaining_spendRetry, retriesRemaining_takePending,
          handler_enterSlot]
        split
        · rename_i same
          rw [same]
          exact Nat.sub_le _ _
        · exact Nat.le_refl _
      rw [credit, credit, unposted]
      split
      · exact Nat.le_refl _
      · exact Nat.add_le_add_right spent _
  | setSecret => exact credit_of_frame rfl (retriesRemaining_setSecret _ _ _ _)
  | notifyUpdated =>
      refine credit_of_frame ?_ (retriesRemaining_timestampUpdated _ _ _)
      simp [Observation.isPosted, note]
  | notifyFailed =>
      exact credit_of_frame rfl (retriesRemaining_timestampUpdateFailed _ _ _)
  | slotOutcome => exact credit_of_frame rfl (retriesRemaining_takePending _ _ _ _)
  | setDefaultSecret | configure | returned | resumed | endUpdated | endFailed | arrived
  | destroyed | slotNull | serverRetry | serverFailed | serverUpdated =>
      exact credit_of_frame rfl rfl

/-- A retry is paid for. -/
theorem credit_retry (bounded : (w.account h).Bounded)
    (pending : (w.handler h).pendingReply = some q) (rejected : w.Rejected h q) :
    ((((w.enterSlot h r).takePending h q).spendRetry h q).enlist h).credit h + 1 = w.credit h := by
  have posted := bounded.outcomes
  simp only [Account.due, account, pending, reduceCtorEq, if_false] at posted
  have unposted : posts h ((((w.enterSlot h r).takePending h q).spendRetry h q).enlist
      h).trace = posts h w.trace := by
    simp [Observation.isPosted]
  have spent : (((((w.enterSlot h r).takePending h q).spendRetry h q).enlist h).handler
      h).retriesRemaining = (w.handler h).retriesRemaining - 1 := by
    simp
  have left := rejected.2
  rw [credit, credit, unposted, spent, if_neg (by omega), if_neg (by omega)]
  exact Nat.sub_add_cancel left

/-! ## The server's side -/

/-- The requests the update that runs may still make. -/
def updateLeft (w : World P ι) : Nat :=
  if w.server.pendingReply = none ∨ w.control.locked = true then 0
  else w.server.retriesRemaining

omit [DecidableEq ι] in
theorem updateLeft_of_running (pending : w.server.pendingReply ≠ none)
    (free : w.control.locked = false) : w.updateLeft = w.server.retriesRemaining := by
  rw [updateLeft, if_neg]
  rw [free]
  rintro (idle | locked)
  · exact pending idle
  · cases locked

omit [DecidableEq ι] in
theorem updateLeft_of_locked (locked : w.control.locked = true) : w.updateLeft = 0 := by
  rw [updateLeft, if_pos (.inr locked)]

omit [DecidableEq ι] in
theorem updateLeft_of_idle (idle : w.server.pendingReply = none) : w.updateLeft = 0 := by
  rw [updateLeft, if_pos (.inl idle)]

omit [DecidableEq ι] in
theorem updateLeft_congr (pending : w'.server.pendingReply = w.server.pendingReply)
    (retries : w'.server.retriesRemaining = w.server.retriesRemaining)
    (locked : w'.control.locked = w.control.locked) : w'.updateLeft = w.updateLeft := by
  rw [updateLeft, updateLeft, pending, retries, locked]

omit [DecidableEq ι] in
theorem asks_le_of_frame (trace : asks w'.trace = asks w.trace)
    (pending : w'.server.pendingReply = w.server.pendingReply)
    (retries : w'.server.retriesRemaining = w.server.retriesRemaining)
    (locked : w'.control.locked = w.control.locked) :
    asks w'.trace + w'.updateLeft ≤ asks w.trace + w.updateLeft := by
  rw [trace, updateLeft_congr pending retries locked]

omit [DecidableEq ι] in
/-- Waiting for the time costs at most one update. -/
theorem asks_enlist (free : w.control.locked = false) :
    asks (w.enlist h).trace + (w.enlist h).updateLeft ≤ asks w.trace + w.updateLeft + 3 := by
  cases pending : w.server.pendingReply with
  | some t =>
      have left : (w.append h).updateLeft = w.updateLeft := updateLeft_congr rfl rfl rfl
      rw [enlist_of_pending pending, left]
      simp [Observation.isAsked]
  | none =>
      have left : ((w.ask numberRetries).append h).updateLeft = numberRetries :=
        updateLeft_of_running (Option.some_ne_none _) free
      rw [enlist_of_idle pending, left, updateLeft_of_idle pending]
      simp [Observation.isAsked, numberRetries]

/-- Without a handler's retry, the server asks for the time only within a running update. -/
theorem asks_action {e : Event P ι} (inv : w.Inv) (action : Action w e w') :
    asks w'.trace + w'.updateLeft ≤ asks w.trace + w.updateLeft ∨
      ∃ h r q, w.Finishing r (.handler h) ∧ (w.handler h).pendingReply = some q ∧
        w.Rejected h q ∧ w' = (((w.enterSlot h r).takePending h q).spendRetry h q).enlist h := by
  cases action with
  | slotRetry finishing pending rejected =>
      exact .inr ⟨_, _, _, finishing, pending, rejected, rfl⟩
  | @postNow h endpoint content user free idle =>
      refine .inl ?_
      rw [updateLeft_of_idle (by rw [server_timestampUpdated]; exact idle)]
      simp [Observation.isAsked]
  | postDeferred user free pending => exact .inl (Nat.le_refl _)
  | postBlocked =>
      refine .inl ?_
      rw [updateLeft_of_locked rfl]
      exact Nat.le_add_right _ _
  | setSecret | setDefaultSecret | arrived | destroyed | slotNull => exact .inl (Nat.le_refl _)
  | configure plain => exact .inl (asks_le_of_frame rfl plain.pending plain.retries rfl)
  | returned callback =>
      exact .inl (asks_le_of_frame rfl rfl rfl (free_of_callback callback).symm)
  | resumed | notifyFailed =>
      refine .inl ?_
      rw [updateLeft_of_locked rfl]
      exact Nat.le_add_right _ _
  | notifyUpdated =>
      refine .inl ?_
      rw [updateLeft_of_locked rfl]
      simp [Observation.isAsked, note]
  | endUpdated | endFailed =>
      refine .inl ?_
      rw [updateLeft_of_idle rfl]
      exact Nat.le_add_right _ _
  | slotOutcome finishing => exact .inl (asks_le_of_frame rfl rfl rfl finishing.free.symm)
  | @serverRetry r finishing refused left =>
      have free := finishing.free
      have pending := (inv.asked r finishing.live finishing.receiver).1
      have before := updateLeft_of_running (Option.ne_none_iff_exists'.mpr ⟨_, pending⟩) free
      have after : (((w.enterServer r).discard r).ask (w.server.retriesRemaining - 1)).updateLeft =
          w.server.retriesRemaining - 1 :=
        updateLeft_of_running (Option.some_ne_none _) free
      refine .inl ?_
      rw [before, after]
      simp only [trace_ask, trace_discard, trace_enterServer, asks_cons, Observation.isAsked,
        if_true, Bool.false_eq_true, if_false]
      omega
  | serverFailed | serverUpdated =>
      refine .inl ?_
      rw [updateLeft_of_locked (locked_startLoop _ _)]
      simp [Observation.isAsked]

variable [Fintype ι]

/-- What has been asked, and may still be asked without a further post, has been paid for. -/
def Solvent (w : World P ι) : Prop :=
  asks w.trace + w.updateLeft + 3 * ∑ h, w.credit h ≤ 3 * ∑ h, posts h w.trace

theorem Initial.solvent (init : w.Initial) : w.Solvent := by
  simp [Solvent, credit, updateLeft, init.trace, init.pending]

/-- **A step costs no more than it brings in.** -/
theorem Solvent.action {e : Event P ι} (solvent : w.Solvent) (inv : w.Inv)
    (bounded : ∀ k, (w.account k).Bounded) (action : Action w e w') : w'.Solvent := by
  have paid : ∀ k ∈ Finset.univ, w'.credit k + posts k w.trace ≤ w.credit k + posts k w'.trace :=
    fun k _ => credit_action action k
  have total := Finset.sum_le_sum paid
  simp only [Finset.sum_add_distrib] at total
  unfold Solvent at solvent ⊢
  rcases asks_action inv action with less | ⟨h, r, q, finishing, pending, rejected, rfl⟩
  · omega
  · -- the handler that retries pays for the update it may start
    have bought := credit_retry (r := r) (bounded h) pending rejected
    have same : posts h ((((w.enterSlot h r).takePending h q).spendRetry h q).enlist
        h).trace = posts h w.trace := by
      simp [Observation.isPosted]
    have strict := Finset.sum_lt_sum paid ⟨h, Finset.mem_univ h, by omega⟩
    simp only [Finset.sum_add_distrib] at strict
    have free : (((w.enterSlot h r).takePending h q).spendRetry h q).control.locked = false := by
      simp [finishing.loop, Control.locked]
    have cost := asks_enlist (h := h) free
    have before : asks (((w.enterSlot h r).takePending h q).spendRetry h q).trace =
        asks w.trace := by
      simp [Observation.isAsked]
    have left : (((w.enterSlot h r).takePending h q).spendRetry h q).updateLeft = w.updateLeft :=
      updateLeft_congr rfl rfl rfl
    omega

/-- **Five requests a post.** Under any use, every request made is a message of a handler or asks
for the time; there are at most two of the first kind and three of the second for each post. -/
theorem traffic_bounded {es : List (Event P ι)} (init : w.Initial)
    (run : FreeRun World.step w es w') :
    w'.network.next = requests w'.trace ∧
      requests w'.trace = ∑ h, messages h w'.trace + asks w'.trace ∧
      (∀ h, messages h w'.trace ≤ 2 * posts h w'.trace) ∧
      asks w'.trace ≤ 3 * ∑ h, posts h w'.trace ∧
      requests w'.trace ≤ 5 * ∑ h, posts h w'.trace := by
  have kept : (w'.Inv ∧ ∀ k, (w'.account k).Bounded) ∧ w'.Counted ∧ w'.Solvent :=
    run.invariant (I := fun w => (w.Inv ∧ ∀ k, (w.account k).Bounded) ∧ w.Counted ∧ w.Solvent)
      (fun kept _ stepped => by
        obtain ⟨⟨inv, bounded⟩, counted, solvent⟩ := kept
        have action := step_action inv stepped
        exact ⟨⟨inv.step stepped, bounded_step inv bounded stepped⟩, counted.action action,
          solvent.action inv bounded action⟩)
      ⟨⟨init.inv, init.bounded⟩, init.counted, init.solvent⟩
  obtain ⟨⟨-, bounded⟩, counted, solvent⟩ := kept
  have parts := requests_eq w'.trace
  have sent : ∀ h, messages h w'.trace ≤ 2 * posts h w'.trace := by
    intro h
    have twice := (bounded h).messages
    simp only [account] at twice
    omega
  have asked : asks w'.trace ≤ 3 * ∑ h, posts h w'.trace := by
    unfold Solvent at solvent
    omega
  have total : ∑ h, messages h w'.trace ≤ 2 * ∑ h, posts h w'.trace := by
    rw [Finset.mul_sum]
    exact Finset.sum_le_sum fun h _ => sent h
  exact ⟨counted, parts, sent, asked, by omega⟩

/-- The bound is reached: a rejected post whose update succeeds with its last request. -/
theorem traffic_bounded_tight :
    ∃ w', FreeRun World.step Sample.world
        ([Sample.secret, Sample.postByte 1] ++ Sample.completes 0 Sample.rejected ++
          Sample.completes 1 Sample.refused ++ Sample.completes 2 Sample.refused ++
          Sample.completes 3 (Sample.answered 5) ++ [.next]) w' ∧
      w'.network.next = 5 ∧ ∑ h, posts h w'.trace = 1 ∧
      requests w'.trace ≤ 5 * ∑ h, posts h w'.trace :=
  ⟨_, run_of_isSome (by decide), by decide, by decide,
    (traffic_bounded Sample.world_initial (run_of_isSome (by decide))).2.2.2.2⟩

end World

end RestApiOut
