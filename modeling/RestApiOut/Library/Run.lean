import Mathlib.Data.List.Induction

/-!
# Guarded runs of a partial step function

A machine is a partial step function `step : σ → ε → Option σ`: `step s e = none` says that the
event `e` is not enabled in `s`.  `Run step guard s es t` is a finite run from `s` to `t` labelled
`es`, every step of which is enabled and meets `guard` in the state it is taken from.

* `Run.invariant` is the induction rule: what holds at the start and is kept by every guarded step
  holds at the end.
* `Run.source` is its converse: what came to hold during a run was brought about by an event of it.
* `Run.iff_of_step` turns a step-wise equivalence into one about runs: a property that a step keeps
  exactly when the guard holds is kept by exactly the guarded runs.
* `Run.count_add_rank_le` is the ranking rule: a rank that falls by one at every counted event
  and never rises bounds the number of counted events.
* `Run.lockstep` is the two-run rule: a relation that matching steps keep holds after matching runs.
* `Run.length_add_rank_le` and `exists_run_stuck` are the settling rule: under a rank that falls at
  every event all guarded runs are short, and one of them ends where nothing more is enabled.
-/

namespace Transition

variable {σ ε : Type*} {step : σ → ε → Option σ} {guard guard' : σ → ε → Prop}

/-- A run of `step` in which every step meets `guard`. -/
inductive Run (step : σ → ε → Option σ) (guard : σ → ε → Prop) : σ → List ε → σ → Prop
  | nil {s : σ} : Run step guard s [] s
  | cons {s t u : σ} {e : ε} {es : List ε} :
      guard s e → step s e = some t → Run step guard t es u → Run step guard s (e :: es) u

/-- A run whose steps are only required to be enabled. -/
abbrev FreeRun (step : σ → ε → Option σ) : σ → List ε → σ → Prop :=
  Run step fun _ _ => True

theorem Run.mono {s t : σ} {es : List ε} (weaken : ∀ s e, guard s e → guard' s e)
    (run : Run step guard s es t) : Run step guard' s es t := by
  induction run with
  | nil => exact .nil
  | cons ok enabled _ ih => exact .cons (weaken _ _ ok) enabled ih

theorem Run.free {s t : σ} {es : List ε} (run : Run step guard s es t) : FreeRun step s es t :=
  run.mono fun _ _ _ => trivial

theorem Run.append {s t u : σ} {es es' : List ε} (left : Run step guard s es t)
    (right : Run step guard t es' u) : Run step guard s (es ++ es') u := by
  induction left with
  | nil => exact right
  | cons ok enabled _ ih => exact .cons ok enabled (ih right)

theorem Run.snoc {s t u : σ} {e : ε} {es : List ε} (run : Run step guard s es t)
    (ok : guard t e) (enabled : step t e = some u) : Run step guard s (es ++ [e]) u :=
  run.append (.cons ok enabled .nil)

/-- A run splits wherever its events do. -/
theorem Run.of_append {s u : σ} {es es' : List ε} (run : Run step guard s (es ++ es') u) :
    ∃ t, Run step guard s es t ∧ Run step guard t es' u := by
  induction es generalizing s with
  | nil => exact ⟨s, .nil, run⟩
  | cons e es ih =>
      cases run with
      | cons ok enabled rest =>
          obtain ⟨t, before, after⟩ := ih rest
          exact ⟨t, .cons ok enabled before, after⟩

/-- A run splits off its last step. -/
theorem Run.of_snoc {s u : σ} {e : ε} {es : List ε} (run : Run step guard s (es ++ [e]) u) :
    ∃ t, Run step guard s es t ∧ guard t e ∧ step t e = some u := by
  obtain ⟨t, before, last⟩ := run.of_append
  cases last with
  | cons ok enabled rest =>
      cases rest
      exact ⟨t, before, ok, enabled⟩

/-- A step function is deterministic, so the events fix the final state. -/
theorem Run.target_unique {s t u : σ} {es : List ε} (left : Run step guard s es t)
    (right : Run step guard' s es u) : t = u := by
  induction left with
  | nil => cases right; rfl
  | cons _ enabled _ ih =>
      cases right with
      | cons _ enabled' rest =>
          cases enabled.symm.trans enabled'
          exact ih rest

/-- Running a list of events is folding the guarded step function over it. -/
theorem run_iff_foldlM [∀ s e, Decidable (guard s e)] {s t : σ} {es : List ε} :
    Run step guard s es t ↔
      es.foldlM (fun s e => if guard s e then step s e else none) s = some t := by
  induction es generalizing s with
  | nil =>
      simp only [List.foldlM_nil, Option.pure_def, Option.some.injEq]
      exact ⟨fun run => by cases run; rfl, fun h => h ▸ .nil⟩
  | cons e es ih =>
      simp only [List.foldlM_cons, Option.bind_eq_bind, Option.bind_eq_some_iff]
      constructor
      · intro run
        cases run with
        | cons ok enabled rest => exact ⟨_, (if_pos ok).trans enabled, ih.mp rest⟩
      · rintro ⟨u, enabled, rest⟩
        split at enabled
        · exact .cons ‹_› enabled (ih.mpr rest)
        · cases enabled

/-- Events that can all be taken from `s` within the guard run to a state. -/
theorem run_of_isSome [∀ s e, Decidable (guard s e)] {s : σ} {es : List ε}
    (enabled : (es.foldlM (fun s e => if guard s e then step s e else none) s).isSome) :
    Run step guard s es (Option.get _ enabled) :=
  run_iff_foldlM.mpr (Option.some_get enabled).symm

/-- What holds after every run of some events holds after one, if they can all be taken. -/
theorem exists_run [∀ s e, Decidable (guard s e)] {Q : σ → Prop} {s : σ} {es : List ε}
    (enabled : (es.foldlM (fun s e => if guard s e then step s e else none) s).isSome)
    (holds : ∀ t, Run step guard s es t → Q t) : ∃ t, Run step guard s es t ∧ Q t :=
  ⟨_, run_of_isSome enabled, holds _ (run_of_isSome enabled)⟩

/-- **Invariant rule.** What holds at the start and is kept by every guarded step holds at the
end of every guarded run. -/
theorem Run.invariant {I : σ → Prop}
    (keep : ∀ {s e t}, I s → guard s e → step s e = some t → I t)
    {s t : σ} {es : List ε} (run : Run step guard s es t) (start : I s) : I t := by
  induction run with
  | nil => exact start
  | cons ok enabled _ ih => exact ih (keep start ok enabled)

/-- **Source rule.** If only certain events bring a fact about, then a fact that holds at the end
of a run and did not hold at its start was brought about by one of the events of the run. -/
theorem Run.source {I F : σ → Prop} {B : ε → Prop}
    (keep : ∀ {s e t}, I s → guard s e → step s e = some t → I t)
    (source : ∀ {s e t}, I s → guard s e → step s e = some t → F t → F s ∨ B e)
    {s t : σ} {es : List ε} (run : Run step guard s es t) (start : I s) (holds : F t) :
    F s ∨ ∃ e ∈ es, B e := by
  induction run with
  | nil => exact .inl holds
  | @cons s t u e es ok enabled _ ih =>
      rcases ih (keep start ok enabled) holds with before | ⟨e', member, brought⟩
      · rcases source start ok enabled before with first | brought
        · exact .inl first
        · exact .inr ⟨e, List.mem_cons_self, brought⟩
      · exact .inr ⟨e', List.mem_cons_of_mem e member, brought⟩

/-- Guards that agree on the states of an invariant allow the same runs from there. -/
theorem Run.congr_guard {I : σ → Prop} (keep : ∀ {s e t}, I s → step s e = some t → I t)
    (agree : ∀ {s e t}, I s → step s e = some t → (guard s e ↔ guard' s e))
    {s t : σ} {es : List ε} (start : I s) : Run step guard s es t ↔ Run step guard' s es t := by
  constructor
  · intro run
    induction run with
    | nil => exact .nil
    | cons ok enabled _ ih =>
        exact .cons ((agree start enabled).mp ok) enabled (ih (keep start enabled))
  · intro run
    induction run with
    | nil => exact .nil
    | cons ok enabled _ ih =>
        exact .cons ((agree start enabled).mpr ok) enabled (ih (keep start enabled))

/-- **Exact guards.** Let `I` be an invariant of the runs that meet `guard`. If every such step out
of an `I`-state reaches `Q` exactly when it starts in `Q` and meets `guard'`, then such a run from
a `Q`-state ends in `Q` exactly when all its steps meet `guard'`. -/
theorem Run.iff_of_step {I Q : σ → Prop}
    (keep : ∀ {s e t}, I s → guard s e → step s e = some t → I t)
    (exact_ : ∀ {s e t}, I s → guard s e → step s e = some t → (Q t ↔ Q s ∧ guard' s e))
    {s t : σ} {es : List ε} (run : Run step guard s es t) (start : I s) (good : Q s) :
    Q t ↔ Run step guard' s es t := by
  induction es using List.reverseRecOn generalizing t with
  | nil =>
      cases run
      exact ⟨fun _ => .nil, fun _ => good⟩
  | append_singleton es e ih =>
      obtain ⟨u, before, ok, last⟩ := run.of_snoc
      have inv : I u := before.invariant keep start
      rw [exact_ inv ok last, ih before]
      constructor
      · rintro ⟨guarded, ok'⟩
        exact guarded.snoc ok' last
      · intro guarded
        obtain ⟨u', before', ok', last'⟩ := guarded.of_snoc
        cases before.target_unique before'
        exact ⟨before', ok'⟩

/-- **Exact guards, state by state.** If `Q` can only hold after steps that meet `guard`, and such
steps keep an invariant `I` that implies `Q`, then `Q` holds in every state of a free run exactly
when all steps of the run meet `guard`. -/
theorem Run.forall_prefix_iff {I Q : σ → Prop}
    (necessary : ∀ {s e t}, step s e = some t → Q t → guard s e)
    (keep : ∀ {s e t}, I s → guard s e → step s e = some t → I t) (enough : ∀ {s}, I s → Q s)
    {s t : σ} {es : List ε} (run : FreeRun step s es t) (start : I s) :
    (∀ fs u, fs <+: es → FreeRun step s fs u → Q u) ↔ Run step guard s es t := by
  constructor
  · intro always
    induction es using List.reverseRecOn generalizing t with
    | nil =>
        cases run
        exact .nil
    | append_singleton es e ih =>
        obtain ⟨u, before, -, last⟩ := run.of_snoc
        have guarded := ih before fun fs v initial => always fs v
          (initial.trans (List.prefix_append es [e]))
        exact guarded.snoc (necessary last (always _ t (List.prefix_refl _) run)) last
  · intro guarded fs u initial reached
    obtain ⟨rest, rfl⟩ := initial
    obtain ⟨v, before, -⟩ := guarded.of_append
    cases reached.target_unique before
    exact enough (before.invariant keep start)

/-- **Ranking rule.** If a rank falls by at least one at every counted event and never rises,
a run has at most as many counted events as the rank drops. -/
theorem Run.count_add_rank_le {I : σ → Prop} {rank : σ → Nat} {counted : ε → Bool}
    (keep : ∀ {s e t}, I s → guard s e → step s e = some t → I t)
    (fall : ∀ {s e t}, I s → guard s e → step s e = some t →
      rank t + (if counted e then 1 else 0) ≤ rank s)
    {s t : σ} {es : List ε} (run : Run step guard s es t) (start : I s) :
    es.countP counted + rank t ≤ rank s := by
  induction run with
  | nil => simp
  | cons ok enabled _ ih =>
      have drop := fall start ok enabled
      have rest := ih (keep start ok enabled)
      rw [List.countP_cons]
      omega

/-- **Two-run rule.** If from related states every step of the first machine is matched by a step of
the second under a related event, and leads to related states, then so is every run. -/
theorem Run.lockstep {τ δ : Type*} {step' : τ → δ → Option τ} {related : σ → τ → Prop}
    {matching : ε → δ → Prop}
    (match_ : ∀ {s t e d s'}, related s t → matching e d → step s e = some s' →
      ∃ t', step' t d = some t' ∧ related s' t')
    {s s' : σ} {t : τ} {es : List ε} {ds : List δ} (run : Run step guard s es s')
    (start : related s t) (events : List.Forall₂ matching es ds) :
    ∃ t', FreeRun step' t ds t' ∧ related s' t' := by
  induction run generalizing t ds with
  | nil =>
      cases events
      exact ⟨t, .nil, start⟩
  | cons _ enabled _ ih =>
      cases events with
      | cons same rest =>
          obtain ⟨u, enabled', there⟩ := match_ start same enabled
          obtain ⟨t', run', last⟩ := ih there rest
          exact ⟨t', .cons trivial enabled' run', last⟩

/-! ## Settling -/

/-- No event that the guard allows is enabled. -/
def Stuck (step : σ → ε → Option σ) (guard : σ → ε → Prop) (s : σ) : Prop :=
  ∀ e, guard s e → step s e = none

/-- Under a rank that falls at every event, a run is at most as long as the rank drops. -/
theorem Run.length_add_rank_le {I : σ → Prop} {rank : σ → Nat}
    (keep : ∀ {s e t}, I s → guard s e → step s e = some t → I t)
    (fall : ∀ {s e t}, I s → guard s e → step s e = some t → rank t < rank s)
    {s t : σ} {es : List ε} (run : Run step guard s es t) (start : I s) :
    es.length + rank t ≤ rank s := by
  induction run with
  | nil => simp
  | cons ok enabled _ ih =>
      have drop := fall start ok enabled
      have rest := ih (keep start ok enabled)
      rw [List.length_cons]
      omega

/-- Under such a rank every state can be run to one where nothing is enabled. -/
theorem exists_run_stuck {I : σ → Prop} {rank : σ → Nat}
    (keep : ∀ {s e t}, I s → guard s e → step s e = some t → I t)
    (fall : ∀ {s e t}, I s → guard s e → step s e = some t → rank t < rank s)
    {s : σ} (start : I s) : ∃ es t, Run step guard s es t ∧ Stuck step guard t := by
  induction bound : rank s using Nat.strongRecOn generalizing s with
  | _ n ih =>
      by_cases stuck : Stuck step guard s
      · exact ⟨[], s, .nil, stuck⟩
      · simp only [Stuck, not_forall] at stuck
        obtain ⟨e, ok, more⟩ := stuck
        obtain ⟨t, enabled⟩ := Option.ne_none_iff_exists'.mp more
        have lower := fall start ok enabled
        obtain ⟨es, u, run, ended⟩ := ih (rank t) (bound ▸ lower) (keep start ok enabled) rfl
        exact ⟨e :: es, u, .cons ok enabled run, ended⟩

end Transition
