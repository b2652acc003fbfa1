import RestApiOut.Library.Run

/-!
# Protocols

A protocol says which observations may follow which: `next p a q` reads "in the state `p` the
observation `a` may be made, and leads to `q`".  `Follows next p history q` says that a history,
newest observation first, leads from `p` to `q`.

A protocol may refer to facts that the machine it describes learns as it runs (the answers that have
arrived so far, say).  `next` is then indexed by the state of the machine, and grows with it.

* `Follows.append`, `Follows.mono` and `Follows.skip` are the ways to build a history from parts.
* `Follows.countP_le` is the potential rule: it bounds what a history costs by what it earns.
* `Run.follows` is the simulation rule: if whatever a step observes is allowed by the protocol, and
  a relation between machine and protocol is kept, every run follows the protocol.
-/

namespace Transition

variable {π α : Type*} {next next' : π → α → π → Prop}

/-- The history leads the protocol from one state to another. -/
inductive Follows (next : π → α → π → Prop) : π → List α → π → Prop
  | nil {p : π} : Follows next p [] p
  | cons {p q s : π} {a : α} {past : List α} :
      Follows next p past q → next q a s → Follows next p (a :: past) s

theorem Follows.append {p q s : π} {past later : List α} (before : Follows next p past q)
    (after : Follows next q later s) : Follows next p (later ++ past) s := by
  induction after with
  | nil => exact before
  | cons _ allowed ih => exact .cons ih allowed

theorem Follows.mono {p q : π} {history : List α} (grow : ∀ p a q, next p a q → next' p a q)
    (follows : Follows next p history q) : Follows next' p history q := by
  induction follows with
  | nil => exact .nil
  | cons _ allowed ih => exact .cons ih (grow _ _ _ allowed)

/-- Observations the protocol ignores lead nowhere. -/
theorem Follows.skip {p : π} {history : List α} (ignored : ∀ a ∈ history, next p a p) :
    Follows next p history p := by
  induction history with
  | nil => exact .nil
  | cons a past ih =>
      have before := ih fun b member => ignored b (List.mem_cons_of_mem a member)
      exact .cons before (ignored a List.mem_cons_self)

/-- **Potential rule.** Let observations of two kinds earn `m` and `n`.  If every observation that
counts is paid for by what it earns and by the fall of a potential, then so is every history. -/
theorem Follows.countP_le {counted kind kind' : α → Bool} {m n : Nat} {potential : π → Nat}
    (pays : ∀ p a q, next p a q → (if counted a then 1 else 0) + potential q ≤
      ((if kind a then m else 0) + if kind' a then n else 0) + potential p)
    {p q : π} {history : List α} (follows : Follows next p history q) :
    history.countP counted + potential q ≤
      m * history.countP kind + n * history.countP kind' + potential p := by
  have earned : ∀ (k count : Nat) (b : Bool),
      k * (count + if b = true then 1 else 0) = k * count + if b = true then k else 0 := by
    intro k count b
    cases b with
    | false => rfl
    | true => exact Nat.mul_succ k count
  induction follows with
  | nil => simp
  | cons _ allowed ih =>
      have paid := pays _ _ _ allowed
      rw [List.countP_cons, List.countP_cons, List.countP_cons, earned, earned]
      omega

/-- **Simulation rule.** Let `related` match machine states with protocol states.  If every guarded
step from an `I`-state only adds observations that take the protocol to a matching state, then a run
from a state whose history follows the protocol ends in one whose history does. -/
theorem Run.follows {σ ε : Type*} {step : σ → ε → Option σ} {guard : σ → ε → Prop} {I : σ → Prop}
    {next : σ → π → α → π → Prop} {history : σ → List α} {related : σ → π → Prop}
    (keep : ∀ {s e t}, I s → guard s e → step s e = some t → I t)
    (grow : ∀ {s e t}, I s → guard s e → step s e = some t → ∀ p a q, next s p a q → next t p a q)
    (simulate : ∀ {s e t p}, I s → guard s e → step s e = some t → related s p →
      ∃ new q, history t = new ++ history s ∧ Follows (next t) p new q ∧ related t q)
    {s t : σ} {es : List ε} {start p : π} (run : Run step guard s es t) (inv : I s)
    (follows : Follows (next s) start (history s) p) (here : related s p) :
    ∃ q, Follows (next t) start (history t) q ∧ related t q := by
  induction run generalizing p with
  | nil => exact ⟨p, follows, here⟩
  | cons ok enabled _ ih =>
      obtain ⟨new, q, emitted, allowed, there⟩ := simulate inv ok enabled here
      have before := follows.mono (grow inv ok enabled)
      refine ih (keep inv ok enabled) ?_ there
      rw [emitted]
      exact before.append allowed

end Transition
