import RestApiOut.Library.ImplicitSharing
import Mathlib.Data.Finset.Range
import Mathlib.Data.Multiset.MapFold

/-!
# What is left in freed blocks

A block is free once its last variable has let go of it; nobody reads it any more, but its content
stays.  `freed` collects those contents.  `Exclusive` is the discipline under which they can be
accounted for: no variable shares its block, and no block is lost.

* `Exclusive.freed_write`: writing a variable leaves nothing behind.
* `Exclusive.freed_drop`: a variable written a last time and dropped leaves what was written.
* `Exclusive.scratch`: a copy that is written and dropped is one dead block and nothing else.
-/

namespace ImplicitSharing

namespace Heap

variable {H V : Type*} {s t : Heap H V} {h k : H} {a : Nat} {v : V}

/-- The blocks that were allocated and have no variable left. -/
def freedBlocks (s : Heap H V) : Finset Nat := {a ∈ Finset.range s.next | s.refs a = 0}

/-- What the freed blocks contain. -/
def freed (s : Heap H V) : Multiset V := s.freedBlocks.val.map s.content

/-- Every block that is not free is the block of exactly one variable. -/
structure Exclusive (s : Heap H V) : Prop where
  allocated : ∀ h a, s.block h = some a → a < s.next
  single : ∀ h a, s.block h = some a → s.refs a = 1
  sole : ∀ h k a, s.block h = some a → s.block k = some a → k = h
  used : ∀ a, s.refs a ≠ 0 → ∃ h, s.block h = some a

theorem mem_freedBlocks : a ∈ s.freedBlocks ↔ a < s.next ∧ s.refs a = 0 := by
  rw [freedBlocks, Finset.mem_filter, Finset.mem_range]

theorem freed_congr (blocks : t.freedBlocks = s.freedBlocks)
    (content : ∀ a ∈ s.freedBlocks, t.content a = s.content a) : t.freed = s.freed := by
  rw [freed, freed, blocks]
  exact Multiset.map_congr rfl content

/-- One more free block. -/
theorem freed_insert (blocks : t.freedBlocks = insert a s.freedBlocks) (new : a ∉ s.freedBlocks)
    (content : ∀ b ∈ s.freedBlocks, t.content b = s.content b) :
    t.freed = t.content a ::ₘ s.freed := by
  rw [freed, freed, blocks, Finset.insert_val_of_notMem new, Multiset.map_cons]
  exact congrArg _ (Multiset.map_congr rfl content)

theorem update_null [DecidableEq H] (null : s.block h = none) :
    Function.update s.block h none = s.block :=
  Function.update_eq_iff.mpr ⟨null.symm, fun _ _ => rfl⟩

theorem release_of_null [DecidableEq H] (null : s.block h = none) : s.release h = s := by
  simp only [release, null, update_null null]

/-! ## Blocks that nobody shares -/

namespace Exclusive

theorem counted (exclusive : s.Exclusive) : s.Counted where
  card_le a users used := by
    rcases users.eq_empty_or_nonempty with rfl | ⟨h, member⟩
    · exact Nat.zero_le _
    · rw [exclusive.single h a (used h member)]
      refine Finset.card_le_one.mpr fun j first k second => ?_
      exact exclusive.sole k j a (used k second) (used j first)
  allocated := exclusive.allocated

theorem empty [Inhabited V] : (empty : Heap H V).Exclusive where
  allocated _ _ used := nomatch used
  single _ _ used := nomatch used
  sole _ _ _ used := nomatch used
  used _ counted := absurd rfl counted

/-- A dead block at the end of the heap is nobody's. -/
theorem extend (exclusive : s.Exclusive) (v : V) : (s.extend v).Exclusive where
  allocated h a used := Nat.lt_succ_of_lt (exclusive.allocated h a used)
  single h a used := by
    have old : a ≠ s.next := Nat.ne_of_lt (exclusive.allocated h a used)
    exact (Function.update_of_ne old ..).trans (exclusive.single h a used)
  sole := exclusive.sole
  used a counted := by
    rcases eq_or_ne a s.next with rfl | old
    · exact absurd (Function.update_self ..) counted
    · exact exclusive.used a fun free => counted ((Function.update_of_ne old ..).trans free)

theorem overwrite (exclusive : s.Exclusive) (h : H) (f : V → V) : (s.overwrite h f).Exclusive := by
  unfold Heap.overwrite
  split
  · exact exclusive
  · exact ⟨exclusive.allocated, exclusive.single, exclusive.sole, exclusive.used⟩

variable [DecidableEq H]

/-- A variable given a new block has that one; any other has the block it had. -/
theorem taken (exclusive : s.Exclusive) (used : ((s.extend v).share h s.next).block k = some a) :
    (k = h ∧ a = s.next) ∨ (s.block k = some a ∧ a < s.next) := by
  rcases eq_or_ne k h with rfl | other
  · cases block_share_self.symm.trans used
    exact .inl ⟨rfl, rfl⟩
  · have before := (block_share_of_ne other).symm.trans used
    exact .inr ⟨before, exclusive.allocated k a before⟩

/-- A variable that was null takes a new block. -/
theorem share_extend (exclusive : s.Exclusive) (null : s.block h = none) (v : V) :
    ((s.extend v).share h s.next).Exclusive where
  allocated k a used := by
    rcases exclusive.taken used with ⟨-, rfl⟩ | ⟨-, old⟩
    · exact Nat.lt_succ_self _
    · exact Nat.lt_succ_of_lt old
  single k a used := by
    rcases exclusive.taken used with ⟨-, rfl⟩ | ⟨before, old⟩
    · simp only [Heap.share, Heap.extend, Function.update_self]
    · simp only [Heap.share, Heap.extend, Function.update_of_ne (Nat.ne_of_lt old)]
      exact exclusive.single k a before
  sole j k a first second := by
    rcases exclusive.taken first with ⟨rfl, new⟩ | ⟨before, old⟩ <;>
      rcases exclusive.taken second with ⟨rfl, new'⟩ | ⟨before', old'⟩
    · rfl
    · exact absurd new (Nat.ne_of_lt old')
    · exact absurd new' (Nat.ne_of_lt old)
    · exact exclusive.sole j k a before before'
  used a counted := by
    rcases eq_or_ne a s.next with rfl | old
    · exact ⟨h, block_share_self⟩
    · have before : s.refs a ≠ 0 := by
        simpa only [Heap.share, Heap.extend, Function.update_of_ne old] using counted
      obtain ⟨k, used⟩ := exclusive.used a before
      have other : k ≠ h := by
        rintro rfl
        cases null.symm.trans used
      exact ⟨k, (block_share_of_ne other).trans used⟩

/-- The block a variable lets go of is free: nobody else had it. -/
theorem release (exclusive : s.Exclusive) (h : H) : (s.release h).Exclusive := by
  cases own : s.block h with
  | none =>
      rw [release_of_null own]
      exact exclusive
  | some b =>
      have before : ∀ {k a}, (s.release h).block k = some a → k ≠ h ∧ s.block k = some a := by
        intro k a used
        have other : k ≠ h := by
          rintro rfl
          cases block_release_self.symm.trans used
        exact ⟨other, (block_release_of_ne other).symm.trans used⟩
      have free : (s.release h).refs b = 0 := by
        simp only [Heap.release, own, Function.update_self, exclusive.single h b own]
      have kept : ∀ {a}, a ≠ b → (s.release h).refs a = s.refs a := by
        intro a apart
        simp only [Heap.release, own, Function.update_of_ne apart]
      refine ⟨fun k a used => exclusive.allocated k a (before used).2, fun k a used => ?_,
        fun j k a first second => exclusive.sole j k a (before first).2 (before second).2,
        fun a counted => ?_⟩
      · obtain ⟨other, used⟩ := before used
        have apart : a ≠ b := fun same => other (exclusive.sole h k b own (same ▸ used))
        exact (kept apart).trans (exclusive.single k a used)
      · have apart : a ≠ b := fun same => counted (same ▸ free)
        obtain ⟨k, used⟩ := exclusive.used a (kept apart ▸ counted)
        have other : k ≠ h := by
          rintro rfl
          exact apart (Option.some.inj (used.symm.trans own))
        exact ⟨k, (block_release_of_ne other).trans used⟩

end Exclusive

/-! ## Writing and dropping -/

variable [DecidableEq H]

theorem overwrite_share_extend (f : V → V) :
    ((s.extend v).share h s.next).overwrite h f = (s.extend (f v)).share h s.next := by
  simp only [overwrite, share, extend, Function.update_self, Function.update_idem]

/-- A null variable that takes a block and lets go of it has changed nothing. -/
theorem release_share (null : s.block h = none) : (s.share h a).release h = s := by
  simp only [release, share, Function.update_self, Function.update_idem, Nat.add_sub_cancel,
    Function.update_eq_self, update_null null]

variable [Inhabited V]

theorem write_of_null (null : s.block h = none) (f : V → V) :
    s.write h f = (s.extend (f default)).share h s.next := by
  simp only [write, detach, null, allocate, release_of_null null, overwrite_share_extend]

/-- A variable writes the block it has to itself. -/
theorem Exclusive.write_of_block (exclusive : s.Exclusive) (own : s.block h = some a)
    (f : V → V) : s.write h f = s.overwrite h f := by
  have single : s.refs a ≤ 1 := Nat.le_of_eq (exclusive.single h a own)
  simp only [write, detach, own, if_pos single]

theorem Exclusive.write (exclusive : s.Exclusive) (h : H) (f : V → V) :
    (s.write h f).Exclusive := by
  cases own : s.block h with
  | none =>
      rw [write_of_null own]
      exact exclusive.share_extend own _
  | some a =>
      rw [exclusive.write_of_block own]
      exact exclusive.overwrite h f

/-- Only the block of the variable that is written may change. -/
theorem Exclusive.block_write_of_ne (exclusive : s.Exclusive) (f : V → V) (other : k ≠ h) :
    (s.write h f).block k = s.block k := by
  cases own : s.block h with
  | none =>
      rw [write_of_null own]
      exact block_share_of_ne other
  | some a =>
      rw [exclusive.write_of_block own]
      simp only [Heap.overwrite, own]

theorem Exclusive.block_write_self (exclusive : s.Exclusive) (h : H) (f : V → V) :
    ∃ a, (s.write h f).block h = some a := by
  cases own : s.block h with
  | none =>
      rw [write_of_null own]
      exact ⟨s.next, block_share_self⟩
  | some a =>
      rw [exclusive.write_of_block own]
      exact ⟨a, by simp only [Heap.overwrite, own]⟩

/-! ## What stays behind -/

omit [DecidableEq H] [Inhabited V] in
theorem freed_extend (s : Heap H V) (v : V) : (s.extend v).freed = v ::ₘ s.freed := by
  have old : ∀ b ∈ s.freedBlocks, b ≠ s.next := fun b member =>
    Nat.ne_of_lt (mem_freedBlocks.mp member).1
  have new : s.next ∉ s.freedBlocks := fun member => old _ member rfl
  have blocks : (s.extend v).freedBlocks = insert s.next s.freedBlocks := by
    ext b
    simp only [mem_freedBlocks, Finset.mem_insert, extend]
    rcases eq_or_ne b s.next with rfl | apart
    · simp only [Function.update_self, Nat.lt_succ_self, true_and, true_or]
    · simp only [Function.update_of_ne apart, apart, false_or]
      exact and_congr_left fun _ => ⟨fun below => by omega, Nat.lt_succ_of_lt⟩
  rw [freed_insert blocks new fun b member => Function.update_of_ne (old b member) ..]
  exact congrArg (· ::ₘ s.freed) (Function.update_self ..)

omit [Inhabited V] in
/-- A new block that is in use is not among the freed ones. -/
theorem freed_share_extend (s : Heap H V) (h : H) (v : V) :
    ((s.extend v).share h s.next).freed = s.freed := by
  refine freed_congr ?_ fun b member =>
    Function.update_of_ne (Nat.ne_of_lt (mem_freedBlocks.mp member).1) ..
  ext b
  simp only [mem_freedBlocks, share, extend]
  rcases eq_or_ne b s.next with rfl | apart
  · simp only [Function.update_self, Nat.lt_irrefl, false_and, iff_false]
    omega
  · simp only [Function.update_of_ne apart]
    exact and_congr_left fun _ => ⟨fun below => by omega, Nat.lt_succ_of_lt⟩

namespace Exclusive

/-- Writing a variable leaves nothing behind. -/
theorem freed_write (exclusive : s.Exclusive) (h : H) (f : V → V) :
    (s.write h f).freed = s.freed := by
  cases own : s.block h with
  | none =>
      rw [write_of_null own]
      exact freed_share_extend s h _
  | some a =>
      rw [exclusive.write_of_block own]
      simp only [Heap.overwrite, own]
      refine freed_congr rfl fun b member => Function.update_of_ne ?_ ..
      rintro rfl
      cases (mem_freedBlocks.mp member).2.symm.trans (exclusive.single h b own)

omit [Inhabited V] in
/-- A variable that lets go of its block leaves the content behind. -/
theorem freed_release (exclusive : s.Exclusive) (own : s.block h = some a) :
    (s.release h).freed = s.content a ::ₘ s.freed := by
  have single := exclusive.single h a own
  have new : a ∉ s.freedBlocks := fun member => by
    cases (mem_freedBlocks.mp member).2.symm.trans single
  refine freed_insert (t := s.release h) ?_ new fun _ _ => rfl
  ext b
  simp only [mem_freedBlocks, Finset.mem_insert, Heap.release, own]
  rcases eq_or_ne b a with rfl | apart
  · simp only [Function.update_self, single, exclusive.allocated h b own, true_and, true_or]
  · simp only [Function.update_of_ne apart, apart, false_or]

/-- A variable that is written a last time and dropped leaves what was written. -/
theorem freed_drop (exclusive : s.Exclusive) (h : H) (f : V → V) :
    ((s.write h f).release h).freed = f (s.value h) ::ₘ s.freed := by
  obtain ⟨a, own⟩ := exclusive.block_write_self h f
  have written : (s.write h f).content a = f (s.value h) := by
    have reads := congrFun (value_write exclusive.counted h f) h
    simpa only [value, own, Function.update_self] using reads
  rw [(exclusive.write h f).freed_release own, exclusive.freed_write, written]

/-- **A scratch copy.** Copying into a null variable, writing the copy and dropping it adds one dead
block, which holds what was written, and changes nothing else. -/
theorem scratch (exclusive : s.Exclusive) (null : s.block h = none) (source : H) (f : V → V) :
    ((s.copy h source).write h f).release h = s.extend (f (s.value source)) := by
  cases used : s.block source with
  | none =>
      simp only [Heap.copy, value, used, release_of_null null, write_of_null null]
      exact release_share null
  | some a =>
      -- the block has two users now, so the copy is detached before it is written
      have shared : ¬ (s.share h a).refs a ≤ 1 := by
        simp only [share, Function.update_self, exclusive.single source a used]
        decide
      simp only [Heap.copy, value, used, release_of_null null, Heap.write, detach,
        block_share_self, if_neg shared, allocate, release_share null]
      exact (congrArg (Heap.release · h) (overwrite_share_extend f)).trans (release_share null)

end Exclusive

end Heap

end ImplicitSharing
