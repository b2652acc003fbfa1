import RestApiOut.Sample

/-!
# The server under many threads

Here the server is alone, and its callers are any number of `RestApi` objects on any threads.
`updateTimeDelta` and `checkTimestamp` are one critical section each and may run at any point, also
between the two parts of `responseReceived`: the unlocked part, which reads, parses and retries, and
the locked part, which calls everybody back.  The callbacks do not call back into the server.

* `Shared.Inv` ties `pendingReply`, the list and the retry counter together across all
  interleavings; its `ledger` says that the callbacks made and the handlers waiting are exactly the
  registrations, in order and cycle by cycle.
* `no_waiter_lost` draws the conclusions for every run, with the bound on how long a cycle may take.
-/

namespace RestApiOut

open Transition History

variable {P : Platform} {ι : Type}

/-- The callbacks of the locked part, in the order of the list. -/
def Core.callBack (c : Core P ι) (updated : Bool) : Core P ι :=
  c.server.waitingRestApis.foldl (fun c restApi => c.note (.notified restApi updated)) c

/-- The locked part of `Server::responseReceived`. -/
def Core.responseReceivedLocked (c : Core P ι) (updated : Bool) : Option (Core P ι) := do
  let c ← c.beginNotify updated
  return (c.callBack updated).release updated

/-- The server between critical sections.  `verdict` is set while `responseReceived` has done its
unlocked part and not yet taken the mutex. -/
structure Shared (P : Platform) (ι : Type) where
  core : Core P ι
  verdict : Option Bool

/-- `update` and `check` are calls from any thread; `arrive` is the network's; `finish` runs the
unlocked part of `responseReceived` for `r` and `notify` the locked part. -/
inductive Section (ι : Type)
  | update (restApi : ι)
  | check (restApi : ι)
  | arrive (r : ReplyId) (result : ReplyResult)
  | finish (r : ReplyId)
  | notify

namespace Shared

def step (s : Shared P ι) : Section ι → Option (Shared P ι)
  | .update restApi => do
      let core ← s.core.updateTimeDelta restApi
      return { s with core := core }
  | .check restApi => do
      let (_, core) ← s.core.checkTimestamp restApi
      return { s with core := core }
  | .arrive r result =>
      if r ∈ s.core.network.live ∧ s.core.network.arrived r = false then
        some { s with core.network := s.core.network.arrive r result }
      else none
  | .finish r =>
      if s.verdict = none ∧ r ∈ s.core.network.live ∧ s.core.network.arrived r = true then do
        let core := { s.core with network := s.core.network.retire r }
        let (core, verdict) ←
          (core.note (.answered r s.core.server.pendingReply)).responseReceivedUnlocked
        return {
          core := core
          verdict :=
            match verdict with
            | .retrying => none
            | .failed => some false
            | .updated => some true }
      else none
  | .notify =>
      match s.verdict with
      | none => none
      | some updated => do
          let core ← s.core.responseReceivedLocked updated
          return { core := core, verdict := none }

/-- A server just constructed, before any call. -/
structure Initial (s : Shared P ι) : Prop where
  mutex : s.core.server.requestMutex = false
  pending : s.core.server.pendingReply = none
  waiting : s.core.server.waitingRestApis = []
  network : s.core.network = Network.empty
  trace : s.core.trace = []
  verdict : s.verdict = none

end Shared

/-- Whether the latest answer the server read was accepted. -/
def lastAccepted : Trace P ι → Bool
  | [] => false
  | .accepted _ :: _ => true
  | .answered _ _ :: _ => false
  | _ :: past => lastAccepted past

/-- `responseReceived` reads the reply that finished, and every callback and the signal after it
report the answer it read last. -/
def Faithful : Observation P ι → Trace P ι → Prop
  | .answered trigger pending, _ => pending = some trigger
  | .notified _ updated, past => updated = lastAccepted past
  | .released updated, past => updated = lastAccepted past
  | _, _ => True

namespace Shared

/-- What holds between any two critical sections. -/
structure Inv (s : Shared P ι) : Prop where
  free : s.core.server.requestMutex = false
  outstanding : ∀ r ∈ s.core.network.live,
    s.core.server.pendingReply = some r ∧ s.verdict = none
  awaited : ∀ r, s.core.server.pendingReply = some r → s.verdict = none →
    r ∈ s.core.network.live
  verdict : s.verdict ≠ none → s.core.server.pendingReply ≠ none
  waiting : s.core.server.pendingReply = none → s.core.server.waitingRestApis = []
  retries : s.core.server.pendingReply ≠ none →
    s.core.server.retriesRemaining ≤ numberRetries
  ledger : registrations s.core.trace = callbacks s.core.trace ++
    s.core.server.waitingRestApis.map fun restApi => (restApi, endedCycles s.core.trace)
  decided : ∀ updated, s.verdict = some updated → lastAccepted s.core.trace = updated
  faithful : Always Faithful s.core.trace

variable {s s' : Shared P ι} {h : ι} {r : ReplyId}

theorem Initial.inv (init : s.Initial) : s.Inv where
  free := init.mutex
  outstanding r live := by rw [init.network] at live; exact absurd live (Finset.notMem_empty r)
  awaited r pending := by rw [init.pending] at pending; cases pending
  verdict decided := absurd init.verdict decided
  waiting _ := init.waiting
  retries pending := absurd init.pending pending
  ledger := by rw [init.trace, init.waiting]; rfl
  decided updated decided := by rw [init.verdict] at decided; cases decided
  faithful := by rw [init.trace]; trivial

/-- Appending a handler registers it for the cycle that runs. -/
theorem Inv.append (inv : s.Inv) (pending : s.core.server.pendingReply ≠ none) (h : ι) :
    Inv ⟨s.core.append h, s.verdict⟩ where
  free := inv.free
  outstanding := inv.outstanding
  awaited := inv.awaited
  verdict := inv.verdict
  waiting idle := absurd idle pending
  retries := inv.retries
  ledger := by
    have before := inv.ledger
    simp only [Core.append, registrations, callbacks, endedCycles_cons, Observation.isReleased,
      List.map_append, List.map_cons, List.map_nil] at before ⊢
    rw [before, List.append_assoc]
    rfl
  decided := inv.decided
  faithful := ⟨trivial, inv.faithful⟩

/-- A new request, when none is outstanding. -/
theorem inv_ask {c : Core P ι} {n : Nat} (free : c.server.requestMutex = false)
    (idle : c.network.live = ∅) (bounded : n ≤ numberRetries)
    (ledger : registrations c.trace = callbacks c.trace ++
      c.server.waitingRestApis.map fun restApi => (restApi, endedCycles c.trace))
    (faithful : Always Faithful c.trace) :
    Inv ⟨(Core.issueTimeDeltaRequest { c with server.retriesRemaining := n }), none⟩ where
  free := free
  outstanding r live := by
    change r ∈ insert c.network.next c.network.live at live
    rw [idle] at live
    rcases Finset.mem_insert.mp live with rfl | none
    · exact ⟨rfl, rfl⟩
    · exact absurd none (Finset.notMem_empty r)
  awaited r pending _ := by
    cases pending
    exact Finset.mem_insert_self _ _
  verdict decided := absurd rfl decided
  waiting pending := by cases pending
  retries _ := bounded
  ledger := ledger
  decided updated decided := by cases decided
  faithful := ⟨trivial, faithful⟩

/-- Nothing is outstanding while nothing is pending. -/
theorem Inv.quiet (inv : s.Inv) (idle : s.core.server.pendingReply = none) :
    s.core.network.live = ∅ := by
  apply Finset.eq_empty_of_forall_notMem
  intro r live
  have pending := (inv.outstanding r live).1
  rw [idle] at pending
  cases pending

/-- No verdict is out while nothing is pending. -/
theorem Inv.undecided (inv : s.Inv) (idle : s.core.server.pendingReply = none) :
    s.verdict = none := by
  cases decided : s.verdict with
  | none => rfl
  | some updated => exact absurd idle (inv.verdict (Option.ne_none_iff_exists'.mpr ⟨_, decided⟩))

theorem Inv.pending_of_live (inv : s.Inv) (live : r ∈ s.core.network.live) :
    s.core.server.pendingReply ≠ none :=
  Option.ne_none_iff_exists'.mpr ⟨r, (inv.outstanding r live).1⟩

/-- `updateTimeDelta` starts an update if none is running, and registers its caller. -/
theorem Inv.enlist (inv : s.Inv) (h : ι) : Inv ⟨s.core.enlist h, s.verdict⟩ := by
  unfold Core.enlist
  cases pending : s.core.server.pendingReply with
  | some q =>
      rw [if_neg (Option.some_ne_none q)]
      exact inv.append (Option.ne_none_iff_exists'.mpr ⟨_, pending⟩) h
  | none =>
      rw [if_pos rfl, inv.undecided pending]
      have asked := inv_ask inv.free (inv.quiet pending) (Nat.le_refl numberRetries) inv.ledger
        inv.faithful
      exact asked.append (Option.some_ne_none _) h

/-- The only reply on the wire is the one the server waits for. -/
theorem Inv.only_pending (inv : s.Inv) (live : r ∈ s.core.network.live) :
    (s.core.network.retire r).live = ∅ := by
  apply Finset.eq_empty_of_forall_notMem
  intro q member
  obtain ⟨other, also⟩ := Finset.mem_erase.mp member
  have same := (inv.outstanding q also).1
  rw [(inv.outstanding r live).1] at same
  exact other (Option.some.inj same).symm

/-! ## The locked part -/

/-- The trace after the loop over `waiting`. -/
def afterLoop (waiting : List ι) (updated : Bool) (t : Trace P ι) : Trace P ι :=
  waiting.foldl (fun t restApi => .notified restApi updated :: t) t

theorem callBack_eq (c : Core P ι) (updated : Bool) : c.callBack updated =
    { c with trace := afterLoop c.server.waitingRestApis updated c.trace } := by
  have loop : ∀ (waiting : List ι) (c : Core P ι),
      waiting.foldl (fun c restApi => c.note (.notified restApi updated)) c =
        { c with trace := afterLoop waiting updated c.trace } := by
    intro waiting
    induction waiting with
    | nil => intro c; rfl
    | cons restApi rest ih =>
        intro c
        rw [List.foldl_cons, ih]
        rfl
  exact loop _ c

theorem registrations_afterLoop (waiting : List ι) (updated : Bool) (t : Trace P ι) :
    registrations (afterLoop waiting updated t) = registrations t := by
  induction waiting generalizing t with
  | nil => rfl
  | cons restApi rest ih => exact ih (.notified restApi updated :: t)

/-- The loop calls every entry of the list once, in order. -/
theorem callbacks_afterLoop (waiting : List ι) (updated : Bool) (t : Trace P ι) :
    callbacks (afterLoop waiting updated t) =
      callbacks t ++ waiting.map fun restApi => (restApi, endedCycles t) := by
  induction waiting generalizing t with
  | nil => exact (List.append_nil _).symm
  | cons restApi rest ih =>
      have next := ih (.notified restApi updated :: t)
      have same : endedCycles (.notified restApi updated :: t) = endedCycles t := rfl
      rw [callbacks, same, List.append_assoc] at next
      exact next

theorem lastAccepted_afterLoop (waiting : List ι) (updated : Bool) (t : Trace P ι) :
    lastAccepted (afterLoop waiting updated t) = lastAccepted t := by
  induction waiting generalizing t with
  | nil => rfl
  | cons restApi rest ih => exact ih (.notified restApi updated :: t)

theorem faithful_afterLoop {waiting : List ι} {updated : Bool} {t : Trace P ι}
    (faithful : Always Faithful t) (decided : lastAccepted t = updated) :
    Always Faithful (afterLoop waiting updated t) := by
  induction waiting generalizing t with
  | nil => exact faithful
  | cons restApi rest ih => exact ih ⟨decided.symm, faithful⟩ decided

/-- The locked part settles the ledger and ends the cycle. -/
theorem Inv.notify (inv : s.Inv) {updated : Bool} (decided : s.verdict = some updated) :
    ∃ core, s.core.responseReceivedLocked updated = some core ∧ Inv ⟨core, none⟩ ∧
      core.server.waitingRestApis = [] ∧ core.server.pendingReply = none := by
  have locked : s.core.responseReceivedLocked updated = some
      ((({ s.core with server.requestMutex := true }.note (.notifying updated)).callBack
        updated).release updated) := by
    rw [Core.responseReceivedLocked, Core.beginNotify_of_free inv.free]
    rfl
  have nobody : s.core.network.live = ∅ := by
    apply Finset.eq_empty_of_forall_notMem
    intro r live
    have undecided := (inv.outstanding r live).2
    rw [decided] at undecided
    cases undecided
  refine ⟨_, locked, ?_, rfl, rfl⟩
  rw [callBack_eq]
  refine ⟨rfl, fun r live => ?_, nofun, nofun, fun _ => rfl, fun pending => absurd rfl pending,
    ?_, nofun, ?_⟩
  · change r ∈ s.core.network.live at live
    rw [nobody] at live
    exact absurd live (Finset.notMem_empty r)
  · have before := inv.ledger
    simp only [Core.release, Core.note, registrations, callbacks, registrations_afterLoop,
      callbacks_afterLoop, List.map_nil, List.append_nil]
    exact before
  · refine ⟨?_, faithful_afterLoop ⟨trivial, inv.faithful⟩ (inv.decided updated decided)⟩
    rw [Faithful, lastAccepted_afterLoop]
    exact (inv.decided updated decided).symm

/-- After the locked part nobody waits. -/
theorem Inv.notified (inv : s.Inv) (stepped : s.step .notify = some s') :
    s'.Inv ∧ s'.core.server.waitingRestApis = [] := by
  simp only [step] at stepped
  cases decided : s.verdict with
  | none =>
      rw [decided] at stepped
      cases stepped
  | some updated =>
      obtain ⟨core, locked, kept, empty, -⟩ := inv.notify decided
      rw [decided] at stepped
      simp only [locked] at stepped
      cases stepped
      exact ⟨kept, empty⟩

/-! ## The unlocked part -/

/-- The core once the slot is entered for `r`. -/
def enter (s : Shared P ι) (r : ReplyId) : Core P ι :=
  { s.core with network := s.core.network.retire r }.note
    (.answered r s.core.server.pendingReply)

/-- The unlocked part finds its own reply; it accepts it, asks again, or gives up. -/
theorem Inv.finish_cases (inv : s.Inv) (stepped : s.step (.finish r) = some s') :
    s.verdict = none ∧ r ∈ s.core.network.live ∧
      ((∃ delta, s' = ⟨(s.enter r).accept r delta, some true⟩) ∨
        (0 < s.core.server.retriesRemaining ∧ s' = ⟨(s.enter r).askAgain r, none⟩) ∨
        (s.core.server.retriesRemaining = 0 ∧ s' = ⟨(s.enter r).discard r, some false⟩)) := by
  simp only [step] at stepped
  split at stepped
  · rename_i ready
    obtain ⟨undecided, live, -⟩ := ready
    refine ⟨undecided, live, ?_⟩
    have pending : (s.enter r).server.pendingReply = some r := (inv.outstanding r live).1
    change ((s.enter r).responseReceivedUnlocked.bind fun result => some _) = some s' at stepped
    rw [Core.responseReceivedUnlocked_eq pending] at stepped
    cases parsed : replyDelta P ((s.enter r).network.result r) with
    | some delta =>
        rw [parsed] at stepped
        cases stepped
        exact .inl ⟨delta, rfl⟩
    | none =>
        rw [parsed] at stepped
        by_cases left : 0 < (s.enter r).server.retriesRemaining
        · simp only [left, if_true] at stepped
          cases stepped
          exact .inr (.inl ⟨left, rfl⟩)
        · simp only [left, if_false] at stepped
          cases stepped
          exact .inr (.inr ⟨Nat.eq_zero_of_not_pos left, rfl⟩)
  · cases stepped

/-- The answer is read from the reply that finished. -/
theorem Inv.faithful_enter (inv : s.Inv) (live : r ∈ s.core.network.live) :
    Always Faithful (s.enter r).trace :=
  ⟨(inv.outstanding r live).1, inv.faithful⟩

/-- The unlocked part ended the requests of the cycle with this verdict. -/
theorem Inv.decide (inv : s.Inv) (live : r ∈ s.core.network.live) {c : Core P ι} {updated : Bool}
    (free : c.server.requestMutex = false) (quiet : c.network.live = ∅)
    (pending : c.server.pendingReply = s.core.server.pendingReply)
    (waiting : c.server.waitingRestApis = s.core.server.waitingRestApis)
    (retries : c.server.retriesRemaining = s.core.server.retriesRemaining)
    (ledger : registrations c.trace = registrations s.core.trace ∧
      callbacks c.trace = callbacks s.core.trace ∧ endedCycles c.trace = endedCycles s.core.trace)
    (decided : lastAccepted c.trace = updated) (faithful : Always Faithful c.trace) :
    Inv ⟨c, some updated⟩ where
  free := free
  outstanding q member := by rw [quiet] at member; exact absurd member (Finset.notMem_empty q)
  awaited q _ undecided := by cases undecided
  verdict _ := pending ▸ inv.pending_of_live live
  waiting idle := by
    rw [pending, (inv.outstanding r live).1] at idle
    cases idle
  retries _ := by
    rw [retries]
    exact inv.retries (inv.pending_of_live live)
  ledger := by
    rw [ledger.1, ledger.2.1, ledger.2.2, waiting]
    exact inv.ledger
  decided u same := by
    cases same
    exact decided
  faithful := faithful

theorem Inv.finish (inv : s.Inv) (stepped : s.step (.finish r) = some s') : s'.Inv := by
  obtain ⟨undecided, live, outcome⟩ := inv.finish_cases stepped
  have quiet := inv.only_pending live
  have faithful := inv.faithful_enter live
  rcases outcome with ⟨delta, rfl⟩ | ⟨left, rfl⟩ | ⟨left, rfl⟩
  · exact inv.decide live inv.free quiet rfl rfl rfl ⟨rfl, rfl, rfl⟩ rfl ⟨trivial, faithful⟩
  · have bounded := inv.retries (inv.pending_of_live live)
    exact inv_ask (c := (s.enter r).discard r) inv.free quiet ((Nat.sub_le _ 1).trans bounded)
      inv.ledger faithful
  · exact inv.decide live inv.free quiet rfl rfl rfl ⟨rfl, rfl, rfl⟩ rfl faithful

/-- **Every critical section keeps the invariant.** -/
theorem Inv.step {e : Section ι} (inv : s.Inv) (stepped : s.step e = some s') : s'.Inv := by
  cases e with
  | update restApi =>
      simp only [Shared.step, Core.updateTimeDelta_of_free inv.free] at stepped
      cases stepped
      exact inv.enlist restApi
  | check restApi =>
      cases pending : s.core.server.pendingReply with
      | none =>
          simp only [Shared.step, Core.checkTimestamp_of_idle inv.free pending] at stepped
          cases stepped
          exact inv
      | some q =>
          simp only [Shared.step, Core.checkTimestamp_of_pending inv.free pending] at stepped
          cases stepped
          exact inv.append (Option.ne_none_iff_exists'.mpr ⟨_, pending⟩) restApi
  | arrive q result =>
      simp only [Shared.step] at stepped
      split at stepped
      · cases stepped
        exact ⟨inv.free, inv.outstanding, inv.awaited, inv.verdict, inv.waiting, inv.retries,
          inv.ledger, inv.decided, inv.faithful⟩
      · cases stepped
  | finish q => exact inv.finish stepped
  | notify => exact (inv.notified stepped).1

/-! ## How long a cycle takes -/

/-- The completions until `responseReceived` takes the mutex. -/
def remaining (s : Shared P ι) : Nat :=
  if s.verdict ≠ none then 0
  else if s.core.server.pendingReply = none then numberRetries + 1
  else s.core.server.retriesRemaining + 1

theorem remaining_of_decided (decided : s.verdict ≠ none) : s.remaining = 0 := if_pos decided

theorem remaining_of_pending (undecided : s.verdict = none)
    (pending : s.core.server.pendingReply ≠ none) :
    s.remaining = s.core.server.retriesRemaining + 1 := by
  rw [remaining, if_neg (not_not.mpr undecided), if_neg pending]

theorem Inv.remaining_le (inv : s.Inv) : s.remaining ≤ numberRetries + 1 := by
  unfold remaining
  split
  · exact Nat.zero_le _
  · split
    · exact Nat.le_refl _
    · rename_i pending
      exact Nat.succ_le_succ (inv.retries pending)

/-- The locked part is not run. -/
def Unlocked (_ : Shared P ι) : Section ι → Prop
  | .notify => False
  | _ => True

/-- A reply completes. -/
def Section.completes : Section ι → Bool
  | .finish _ => true
  | _ => false

/-- A registration leaves the length of the cycle as it is, if it does not start it. -/
theorem Inv.remaining_enlist (inv : s.Inv) (h : ι) :
    (Shared.mk (s.core.enlist h) s.verdict).remaining = s.remaining := by
  unfold Core.enlist
  cases pending : s.core.server.pendingReply with
  | some q =>
      rw [if_neg (Option.some_ne_none q)]
      simp [remaining, Core.append, pending]
  | none =>
      rw [if_pos rfl]
      simp [remaining, Core.append, Core.issueTimeDeltaRequest, pending, inv.undecided pending]

/-- Outside the locked part, every completion brings the end of the cycle nearer and nothing moves
it away. -/
theorem remaining_step {e : Section ι} (inv : s.Inv) (unlocked : Unlocked s e)
    (stepped : s.step e = some s') :
    s'.remaining + (if Section.completes e then 1 else 0) ≤ s.remaining := by
  cases e with
  | update restApi =>
      simp only [Shared.step, Core.updateTimeDelta_of_free inv.free] at stepped
      cases stepped
      exact (inv.remaining_enlist restApi).le
  | check restApi =>
      cases pending : s.core.server.pendingReply with
      | none =>
          simp only [Shared.step, Core.checkTimestamp_of_idle inv.free pending] at stepped
          cases stepped
          exact Nat.le_refl _
      | some q =>
          simp only [Shared.step, Core.checkTimestamp_of_pending inv.free pending] at stepped
          cases stepped
          exact Nat.le_refl _
  | arrive q result =>
      simp only [Shared.step] at stepped
      split at stepped
      · cases stepped
        exact Nat.le_refl _
      · cases stepped
  | finish q =>
      obtain ⟨undecided, live, outcome⟩ := inv.finish_cases stepped
      have before := remaining_of_pending undecided (inv.pending_of_live live)
      rcases outcome with ⟨delta, rfl⟩ | ⟨left, rfl⟩ | ⟨left, rfl⟩
      · rw [before, remaining_of_decided (Option.some_ne_none _)]
        exact Nat.succ_le_succ (Nat.zero_le _)
      · rw [before, remaining_of_pending rfl (Option.some_ne_none _)]
        exact Nat.succ_le_succ (Nat.sub_one_lt_of_lt left)
      · rw [before, remaining_of_decided (Option.some_ne_none _)]
        exact Nat.succ_le_succ (Nat.zero_le _)
  | notify => exact absurd unlocked id

/-- While an update runs, the locked part can be entered, or its request is on the wire and, once
it has arrived, its slot can run. -/
theorem Inv.progress (inv : s.Inv) (pending : s.core.server.pendingReply = some r) :
    (s.step .notify).isSome ∨ r ∈ s.core.network.live ∧
      (s.core.network.arrived r = false ∨ (s.step (.finish r)).isSome) := by
  cases decided : s.verdict with
  | some updated =>
      obtain ⟨core, locked, -⟩ := inv.notify decided
      refine .inl ?_
      simp [Shared.step, decided, locked]
  | none =>
      have live := inv.awaited r pending decided
      refine .inr ⟨live, ?_⟩
      cases arrived : s.core.network.arrived r with
      | false => exact .inl rfl
      | true =>
          right
          have entered : (s.enter r).server.pendingReply = some r := pending
          simp only [Shared.step, decided, live, arrived, and_self, if_true]
          change ((s.enter r).responseReceivedUnlocked.bind fun result => some _).isSome
          rw [Core.responseReceivedUnlocked_eq entered]
          cases replyDelta P ((s.enter r).network.result r) with
          | some delta => rfl
          | none =>
              dsimp only
              split <;> rfl

/-- **No waiter is lost, stranded or called twice.** -/
theorem no_waiter_lost {es : List (Section ι)} (init : s.Initial)
    (run : FreeRun Shared.step s es s') :
    ((∀ r ∈ s'.core.network.live, s'.core.server.pendingReply = some r) ∧
      Always Faithful s'.core.trace) ∧
    (s'.core.server.waitingRestApis ≠ [] → ∃ r, s'.core.server.pendingReply = some r ∧
      ((s'.step .notify).isSome ∨ r ∈ s'.core.network.live ∧
        (s'.core.network.arrived r = false ∨ (s'.step (.finish r)).isSome))) ∧
    (registrations s'.core.trace = callbacks s'.core.trace ++
      s'.core.server.waitingRestApis.map fun restApi => (restApi, endedCycles s'.core.trace)) ∧
    (∀ t, s'.step .notify = some t → registrations t.core.trace = callbacks t.core.trace) ∧
    (∀ fs t, Run Shared.step Unlocked s' fs t →
      fs.countP Section.completes ≤ numberRetries + 1) := by
  have inv : s'.Inv := run.invariant (fun inv _ stepped => Inv.step inv stepped) init.inv
  refine ⟨⟨fun r live => (inv.outstanding r live).1, inv.faithful⟩, fun waits => ?_, inv.ledger,
    fun t stepped => ?_, fun fs t rest => ?_⟩
  · cases pending : s'.core.server.pendingReply with
    | none => exact absurd (inv.waiting pending) waits
    | some r => exact ⟨r, rfl, inv.progress pending⟩
  · obtain ⟨kept, empty⟩ := inv.notified stepped
    rw [kept.ledger, empty, List.map_nil, List.append_nil]
  · have bound : fs.countP Section.completes + t.remaining ≤ s'.remaining := by
      refine rest.count_add_rank_le (I := Shared.Inv) ?_ ?_ inv
      · intro u e v inv _ stepped
        exact inv.step stepped
      · intro u e v inv unlocked stepped
        exact remaining_step inv unlocked stepped
    have start := inv.remaining_le
    omega

instance (s : Shared P ι) : ∀ e, Decidable (Unlocked s e)
  | .notify => isFalse id
  | .update _ | .check _ | .arrive _ _ | .finish _ => isTrue trivial

/-- The server of the sample world on its own. -/
def sample : Shared Platform.sample Bool := ⟨Sample.world.toCore, none⟩

theorem sample_initial : sample.Initial := ⟨rfl, rfl, rfl, rfl, rfl, rfl⟩

/-- A handler starts an update, another waits for it, the first attempt is refused, the second
accepted; the first handler registers again before the callbacks, and all three are made. -/
theorem no_waiter_lost_across_retry :
    ∃ s', FreeRun Shared.step sample
        [.update false, .check true, .arrive 0 Sample.refused, .finish 0, .arrive 1
          (Sample.answered 3), .finish 1, .check false, .notify] s' ∧
      callbacks s'.core.trace = [(false, 0), (true, 0), (false, 0)] ∧
      registrations s'.core.trace = callbacks s'.core.trace ++
        s'.core.server.waitingRestApis.map fun restApi => (restApi, endedCycles s'.core.trace) :=
  ⟨_, run_of_isSome (by decide), by decide,
    (no_waiter_lost sample_initial (run_of_isSome (by decide))).2.2.1⟩

end Shared

end RestApiOut
