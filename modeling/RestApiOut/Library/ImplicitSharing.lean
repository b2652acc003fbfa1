import Mathlib.Data.Finset.Card
import Mathlib.Logic.Function.Basic

/-!
# Implicitly shared values

Copying an implicitly shared value copies a pointer to a counted block; a variable is detached,
that is, given a block of its own, before it is written through.  `Heap` has the blocks and their
reference counts, `Counted` says that no block has more variables than its count, and `value` is
what a variable reads.

`Heap.Counted.execAll` is the point of the technique: a program that copies, writes and drops
variables computes what it would compute with a private value in every variable.
-/

namespace ImplicitSharing

variable {H V : Type*}

/-- Variables of type `H` over a heap of blocks of type `V`.  A variable without a block is null. -/
structure Heap (H V : Type*) where
  block : H → Option Nat
  content : Nat → V
  refs : Nat → Nat
  /-- No block from here on has been allocated. -/
  next : Nat

namespace Heap

/-- A heap on which every variable is null. -/
def empty [Inhabited V] : Heap H V := ⟨fun _ => none, fun _ => default, fun _ => 0, 0⟩

/-- What a variable reads; the null variable reads as the default value. -/
def value [Inhabited V] (s : Heap H V) (h : H) : V :=
  match s.block h with
  | none => default
  | some a => s.content a

/-- No block is used by more variables than it counts, and none is used before it is allocated. -/
structure Counted (s : Heap H V) : Prop where
  card_le : ∀ a (users : Finset H), (∀ h ∈ users, s.block h = some a) → users.card ≤ s.refs a
  allocated : ∀ h a, s.block h = some a → a < s.next

/-- A new block that nobody uses yet. -/
def extend (s : Heap H V) (v : V) : Heap H V :=
  { s with
    content := Function.update s.content s.next v
    refs := Function.update s.refs s.next 0
    next := s.next + 1 }

/-- Writing through a pointer into the variable's block, whoever else uses it. -/
def overwrite (s : Heap H V) (h : H) (f : V → V) : Heap H V :=
  match s.block h with
  | none => s
  | some a => { s with content := Function.update s.content a (f (s.content a)) }

variable [DecidableEq H]

/-- The variable lets go of its block. -/
def release (s : Heap H V) (h : H) : Heap H V where
  block := Function.update s.block h none
  content := s.content
  refs :=
    match s.block h with
    | none => s.refs
    | some a => Function.update s.refs a (s.refs a - 1)
  next := s.next

/-- The variable becomes one more user of a block. -/
def share (s : Heap H V) (h : H) (a : Nat) : Heap H V :=
  { s with
    block := Function.update s.block h (some a)
    refs := Function.update s.refs a (s.refs a + 1) }

/-- `target` becomes a copy of `source`: both use one block. -/
def copy (s : Heap H V) (target source : H) : Heap H V :=
  match s.block source with
  | none => s.release target
  | some a => (s.release target).share target a

/-- The variable moves to a new block. -/
def allocate (s : Heap H V) (h : H) (v : V) : Heap H V :=
  ((s.release h).extend v).share h s.next

variable [Inhabited V]

/-- A variable that shares its block moves to a copy of it. -/
def detach (s : Heap H V) (h : H) : Heap H V :=
  match s.block h with
  | none => s.allocate h default
  | some a => if s.refs a ≤ 1 then s else s.allocate h (s.content a)

/-- Writing through the pointer a non-constant access returns. -/
def write (s : Heap H V) (h : H) (f : V → V) : Heap H V :=
  (s.detach h).overwrite h f

variable {s : Heap H V} {h k : H} {a : Nat}

/-! ## The block of a variable -/

section Block

omit [Inhabited V]

@[simp] theorem block_release_self : (s.release h).block h = none := Function.update_self ..

@[simp] theorem block_release_of_ne (other : k ≠ h) : (s.release h).block k = s.block k :=
  Function.update_of_ne other ..

@[simp] theorem block_share_self : (s.share h a).block h = some a := Function.update_self ..

@[simp] theorem block_share_of_ne (other : k ≠ h) : (s.share h a).block k = s.block k :=
  Function.update_of_ne other ..

end Block

/-! ## Counts -/

omit [DecidableEq H] in
theorem Counted.empty : (empty : Heap H V).Counted where
  card_le a users used := by
    have none : users = ∅ := Finset.eq_empty_of_forall_notMem fun h member =>
      nomatch used h member
    rw [none]
    exact Nat.zero_le _
  allocated h a used := nomatch used

section Counts

omit [Inhabited V]

theorem Counted.release (counted : s.Counted) (h : H) : (s.release h).Counted where
  card_le b users used := by
    have gone : h ∉ users := by
      intro member
      have none := used h member
      rw [block_release_self] at none
      cases none
    have before : ∀ k ∈ users, s.block k = some b := by
      intro k member
      have other : k ≠ h := fun same => gone (same ▸ member)
      exact (block_release_of_ne other).symm.trans (used k member)
    cases used' : s.block h with
    | none =>
        simp only [Heap.release, used']
        exact counted.card_le b users before
    | some a =>
        simp only [Heap.release, used']
        rcases eq_or_ne b a with rfl | same
        · -- the block had one more user than it has now
          have card := counted.card_le b (insert h users) fun k member =>
            (Finset.mem_insert.mp member).elim (fun same => same ▸ used') (before k)
          rw [Finset.card_insert_of_notMem gone] at card
          rw [Function.update_self]
          omega
        · rw [Function.update_of_ne same]
          exact counted.card_le b users before
  allocated k b used := by
    rcases eq_or_ne k h with rfl | same
    · rw [block_release_self] at used
      cases used
    · exact counted.allocated k b ((block_release_of_ne same).symm.trans used)

theorem Counted.share (counted : s.Counted) (h : H) (allocated : a < s.next) :
    (s.share h a).Counted where
  card_le b users used := by
    have before : ∀ k ∈ users.erase h, s.block k = some b := by
      intro k member
      obtain ⟨other, member⟩ := Finset.mem_erase.mp member
      exact (block_share_of_ne other).symm.trans (used k member)
    have card := counted.card_le b (users.erase h) before
    simp only [Heap.share]
    rcases eq_or_ne b a with rfl | same
    · rw [Function.update_self]
      have erased := Finset.pred_card_le_card_erase (s := users) (a := h)
      omega
    · rw [Function.update_of_ne same]
      have outside : h ∉ users := by
        intro member
        have now := used h member
        rw [block_share_self] at now
        exact same (Option.some.inj now).symm
      rwa [Finset.erase_eq_of_notMem outside] at card
  allocated k b used := by
    rcases eq_or_ne k h with rfl | same
    · rw [block_share_self] at used
      cases used
      exact allocated
    · exact counted.allocated k b ((block_share_of_ne same).symm.trans used)

omit [DecidableEq H] in
theorem Counted.extend (counted : s.Counted) (v : V) : (s.extend v).Counted where
  card_le b users used := by
    have card := counted.card_le b users used
    simp only [Heap.extend]
    by_cases new : b = s.next
    · have none : users = ∅ := Finset.eq_empty_of_forall_notMem fun h member =>
        absurd (counted.allocated h b (used h member)) (by omega)
      rw [none]
      exact Nat.zero_le _
    · rwa [Function.update_of_ne new]
  allocated k b used := Nat.lt_succ_of_lt (counted.allocated k b used)

theorem Counted.copy (counted : s.Counted) (target source : H) :
    (s.copy target source).Counted := by
  unfold Heap.copy
  split
  · exact counted.release target
  · rename_i a used
    exact (counted.release target).share target (counted.allocated source a used)

theorem Counted.allocate (counted : s.Counted) (h : H) (v : V) : (s.allocate h v).Counted :=
  ((counted.release h).extend v).share h (Nat.lt_succ_self _)

omit [DecidableEq H] in
theorem Counted.overwrite (counted : s.Counted) (h : H) (f : V → V) :
    (s.overwrite h f).Counted := by
  unfold Heap.overwrite
  split
  · exact counted
  · exact ⟨counted.card_le, counted.allocated⟩

end Counts

theorem Counted.detach (counted : s.Counted) (h : H) : (s.detach h).Counted := by
  unfold Heap.detach
  split
  · exact counted.allocate h _
  · split
    · exact counted
    · exact counted.allocate h _

theorem Counted.write (counted : s.Counted) (h : H) (f : V → V) : (s.write h f).Counted :=
  (counted.detach h).overwrite h f

/-! ## What a variable reads -/

theorem value_release : (s.release h).value = Function.update s.value h default := by
  funext k
  rcases eq_or_ne k h with rfl | same
  · rw [Function.update_self, value, block_release_self]
  · rw [Function.update_of_ne same, value, block_release_of_ne same]
    rfl

theorem value_share : (s.share h a).value = Function.update s.value h (s.content a) := by
  funext k
  rcases eq_or_ne k h with rfl | same
  · rw [Function.update_self, value, block_share_self]
    rfl
  · rw [Function.update_of_ne same, value, block_share_of_ne same]
    rfl

omit [DecidableEq H] in
/-- Extending the heap changes what no variable reads. -/
theorem value_extend (counted : s.Counted) (v : V) : (s.extend v).value = s.value := by
  funext k
  cases used : s.block k with
  | none => simp only [value, extend, used]
  | some a =>
      have old : a ≠ s.next := Nat.ne_of_lt (counted.allocated k a used)
      simp only [value, extend, used, Function.update_of_ne old]

theorem value_copy (s : Heap H V) (target source : H) :
    (s.copy target source).value = Function.update s.value target (s.value source) := by
  unfold copy
  split
  · rename_i used
    rw [value_release]
    simp only [value, used]
  · rename_i a used
    rw [value_share, value_release, Function.update_idem]
    simp only [value, used, release]

theorem value_allocate (counted : s.Counted) (v : V) :
    (s.allocate h v).value = Function.update s.value h v := by
  rw [allocate, value_share, value_extend (counted.release h), value_release,
    Function.update_idem]
  exact congrArg _ (Function.update_self ..)

/-- Detaching a variable changes what no variable reads. -/
theorem value_detach (counted : s.Counted) (h : H) : (s.detach h).value = s.value := by
  unfold detach
  split
  · rename_i used
    have null : s.value h = default := by simp only [value, used]
    rw [value_allocate counted, ← null, Function.update_eq_self]
  · rename_i a used
    have read : s.value h = s.content a := by simp only [value, used]
    split
    · rfl
    · rw [value_allocate counted, ← read, Function.update_eq_self]

/-- After detaching, the variable has a block that no other variable uses. -/
theorem sole_detach (counted : s.Counted) (h : H) :
    ∃ a, (s.detach h).block h = some a ∧ ∀ k, k ≠ h → (s.detach h).block k ≠ some a := by
  have fresh : ∀ v, (s.allocate h v).block h = some s.next ∧
      ∀ k, k ≠ h → (s.allocate h v).block k ≠ some s.next := by
    intro v
    refine ⟨block_share_self, fun k other shared => ?_⟩
    rw [allocate, block_share_of_ne other] at shared
    have old := (block_release_of_ne other).symm.trans shared
    exact Nat.lt_irrefl _ (counted.allocated k _ old)
  unfold detach
  split
  · exact ⟨_, fresh _⟩
  · rename_i a used
    split
    · rename_i single
      refine ⟨a, used, fun k other shared => ?_⟩
      have card := counted.card_le a {k, h} fun j member => by
        rcases Finset.mem_insert.mp member with same | same
        · exact same ▸ shared
        · exact Finset.mem_singleton.mp same ▸ used
      rw [Finset.card_pair other] at card
      omega
    · exact ⟨_, fresh _⟩

/-- **Copy on write.** Writing changes what the variable reads, and what no other one does. -/
theorem value_write (counted : s.Counted) (h : H) (f : V → V) :
    (s.write h f).value = Function.update s.value h (f (s.value h)) := by
  obtain ⟨a, own, sole⟩ := sole_detach counted h
  have before := value_detach counted h
  have read : (s.detach h).content a = s.value h := by
    rw [← before]
    simp only [value, own]
  funext k
  rcases eq_or_ne k h with rfl | same
  · rw [Function.update_self, ← read]
    simp only [write, overwrite, value, own, Function.update_self]
  · rw [Function.update_of_ne same, ← before]
    cases used : (s.detach h).block k with
    | none => simp only [write, overwrite, value, own, used]
    | some b =>
        have other : b ≠ a := fun shared => sole k same (used.trans (congrArg some shared))
        simp only [write, overwrite, value, own, used, Function.update_of_ne other]

end Heap

/-! ## Programs -/

/-- What a program does with its variables. -/
inductive Command (H V : Type*)
  | copy (target source : H)
  | release (h : H)
  | write (h : H) (f : V → V)

variable [DecidableEq H] [Inhabited V]

namespace Command

/-- The effect of a command with a private value in every variable. -/
def assign (values : H → V) : Command H V → H → V
  | .copy target source => Function.update values target (values source)
  | .release h => Function.update values h default
  | .write h f => Function.update values h (f (values h))

end Command

namespace Heap

variable {s : Heap H V}

def exec (s : Heap H V) : Command H V → Heap H V
  | .copy target source => s.copy target source
  | .release h => s.release h
  | .write h f => s.write h f

theorem Counted.exec (counted : s.Counted) (c : Command H V) : (s.exec c).Counted := by
  cases c with
  | copy target source => exact counted.copy target source
  | release h => exact counted.release h
  | write h f => exact counted.write h f

theorem value_exec (counted : s.Counted) (c : Command H V) :
    (s.exec c).value = c.assign s.value := by
  cases c with
  | copy target source => exact value_copy s target source
  | release h => exact value_release
  | write h f => exact value_write counted h f

/-- **Value semantics.** A program on shared blocks computes what it computes on private values. -/
theorem Counted.execAll (counted : s.Counted) (cs : List (Command H V)) :
    (cs.foldl Heap.exec s).Counted ∧
      (cs.foldl Heap.exec s).value = cs.foldl Command.assign s.value := by
  induction cs generalizing s with
  | nil => exact ⟨counted, rfl⟩
  | cons c cs ih =>
      rw [List.foldl_cons, List.foldl_cons, ← value_exec counted c]
      exact ih (counted.exec c)

end Heap

end ImplicitSharing
