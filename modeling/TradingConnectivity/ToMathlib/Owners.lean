import Mathlib.Algebra.BigOperators.Group.List.Basic
import Mathlib.Data.List.Perm.Basic
import Mathlib.Logic.ExistsUnique
import Mathlib.Tactic.Ring

/-! # Splitting a list among owners

Every owner takes the elements it owns. When each element has exactly one owner, the parts of all
owners together are the whole list.
-/

namespace List

variable {ι α : Type*} {owners : List ι} {owns : ι → α → Bool}

/-- The parts hold an element once for each of its owners. -/
theorem count_flatMap_filter [DecidableEq α] (xs : List α) (a : α) :
    (owners.flatMap fun i => xs.filter (owns i)).count a =
      owners.countP (owns · a) * xs.count a := by
  induction owners with
  | nil => simp
  | cons i rest ih =>
    rw [flatMap_cons, count_append, ih, countP_cons]
    cases owned : owns i a with
    | true =>
      rw [count_filter owned, if_pos rfl]
      ring
    | false =>
      have absent : a ∉ xs.filter (owns i) := fun member => by
        rw [(mem_filter.mp member).2] at owned
        cases owned
      rw [count_eq_zero_of_not_mem absent, if_neg Bool.false_ne_true]
      ring

/-- Elements with one owner each are distributed without loss and without repetition. -/
theorem flatMap_filter_perm [DecidableEq α] {xs : List α}
    (unique : ∀ a ∈ xs, owners.countP (owns · a) = 1) :
    (owners.flatMap fun i => xs.filter (owns i)).Perm xs := by
  rw [perm_iff_count]
  intro a
  rw [count_flatMap_filter]
  by_cases member : a ∈ xs
  · rw [unique a member, Nat.one_mul]
  · rw [count_eq_zero_of_not_mem member, Nat.mul_zero]

theorem existsUnique_of_countP {p : ι → Bool} (one : owners.countP p = 1) :
    ∃! i, i ∈ owners ∧ p i := by
  rw [countP_eq_length_filter, length_eq_one_iff] at one
  obtain ⟨i, only⟩ := one
  have owner : ∀ j, j ∈ owners ∧ p j ↔ j = i := fun j => by
    rw [← mem_filter, only, mem_singleton]
  exact ⟨i, (owner i).mpr rfl, fun j other => (owner j).mp other⟩

end List
