import Mathlib.Algebra.BigOperators.Group.Finset.Basic
import RestApiOut.Network

/-!
# Weighing what is on the wire

A termination argument gives every reply whose `finished` signal is still to come a weight, read off
its receiver and whether it has arrived.  `Network.weigh` adds them up, and there is one equation
for each operation of a network.
-/

namespace RestApiOut

variable {ι : Type}

namespace Network

variable {n : Network ι} {weight : Reply ι → Nat} {q r : ReplyId}

/-- The weight of all that is on the wire. -/
def weigh (n : Network ι) (weight : Reply ι → Nat) : Nat := ∑ r ∈ n.live, weight (n.reply r)

theorem weigh_congr {n' : Network ι} (live : n'.live = n.live)
    (same : ∀ r ∈ n.live, weight (n'.reply r) = weight (n.reply r)) :
    n'.weigh weight = n.weigh weight := by
  rw [weigh, live]
  exact Finset.sum_congr rfl same

/-- A reply that is posted weighs what a new one does. -/
theorem weigh_post (slot : Receiver ι) :
    (n.post slot).weigh weight = n.weigh weight + weight ⟨some slot, none, false⟩ := by
  have new : (n.post slot).reply n.next = ⟨some slot, none, false⟩ := Function.update_self ..
  have old : ∀ r ∈ n.live, weight ((n.post slot).reply r) = weight (n.reply r) := by
    intro r live
    have other : r ≠ n.next := Nat.ne_of_lt (n.live_lt r live)
    have kept : (n.post slot).reply r = n.reply r := Function.update_of_ne other ..
    rw [kept]
  rw [weigh, live_post, Finset.sum_insert next_notMem_live, new, Finset.sum_congr rfl old,
    Nat.add_comm]
  rfl

theorem weigh_retire (weight : Reply ι → Nat) (live : r ∈ n.live) :
    (n.retire r).weigh weight + weight (n.reply r) = n.weigh weight :=
  Finset.sum_erase_add n.live (fun r => weight (n.reply r)) live

/-- What a reply weighs does not depend on whether it has been discarded. -/
theorem weigh_deleteLater (weight : Reply ι → Nat)
    (ignored : ∀ x, weight { x with discarded := true } = weight x) :
    (n.deleteLater q).weigh weight = n.weigh weight := by
  refine weigh_congr rfl fun r _ => ?_
  unfold deleteLater modify
  dsimp only
  split
  · by_cases same : r = q
    · rw [same, Function.update_self, ignored]
    · rw [Function.update_of_ne same]
  · rfl

theorem weigh_arrive (weight : Reply ι → Nat) (result : ReplyResult) (live : r ∈ n.live) :
    (n.arrive r result).weigh weight + weight (n.reply r) =
      n.weigh weight + weight { n.reply r with result := some result } := by
  have changed : (n.arrive r result).reply =
      Function.update n.reply r { n.reply r with result := some result } :=
    if_pos (n.live_lt r live)
  have others : ∑ q ∈ n.live.erase r, weight ((n.arrive r result).reply q) =
      ∑ q ∈ n.live.erase r, weight (n.reply q) := by
    refine Finset.sum_congr rfl fun q member => ?_
    rw [changed, Function.update_of_ne (Finset.ne_of_mem_erase member)]
  have here : (n.arrive r result).reply r = { n.reply r with result := some result } := by
    rw [changed, Function.update_self]
  have after := Finset.sum_erase_add n.live (fun q => weight ((n.arrive r result).reply q)) live
  have before := Finset.sum_erase_add n.live (fun q => weight (n.reply q)) live
  rw [here] at after
  rw [weigh, live_arrive, weigh]
  omega

end Network

end RestApiOut
