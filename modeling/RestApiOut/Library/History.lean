import Mathlib.Data.List.Basic

/-!
# Histories

A history is a list of observations, newest first.  `Always P h` says that every observation of
`h` satisfied `P` together with the history it was made on, so a law about "the moment something
happened" is a property of one list.
-/

namespace History

variable {α : Type*} {P Q : α → List α → Prop}

/-- Every observation of the history satisfies `P` relative to its own past. -/
def Always (P : α → List α → Prop) : List α → Prop
  | [] => True
  | o :: past => P o past ∧ Always P past

@[simp] theorem always_nil : Always P [] := trivial

@[simp] theorem always_cons {o : α} {past : List α} :
    Always P (o :: past) ↔ P o past ∧ Always P past :=
  Iff.rfl

theorem Always.mono (weaken : ∀ o past, P o past → Q o past) :
    ∀ {h : List α}, Always P h → Always Q h
  | [], _ => trivial
  | _ :: _, ⟨now, before⟩ => ⟨weaken _ _ now, before.mono weaken⟩

instance [∀ o past, Decidable (P o past)] : ∀ h, Decidable (Always P h)
  | [] => isTrue trivial
  | o :: past =>
      have := instDecidableAlways past
      inferInstanceAs (Decidable (P o past ∧ Always P past))

end History
