import Mathlib.Algebra.BigOperators.Group.List.Basic
import Mathlib.Algebra.Order.BigOperators.Group.List
import Mathlib.Algebra.Order.Group.Abs
import Mathlib.Algebra.Order.Group.Unbundled.Int
import Mathlib.Algebra.Order.Ring.Int

/-! # Arithmetic of 64-bit machine integers

Quantities, prices and timestamps are two's complement 64-bit integers whose addition wraps.
Sums of such integers are taken in the commutative monoid they form, and agree with the sums of
the integers they denote as long as nothing overflows (`Int64.toInt_sum_of_nonneg`).
-/

namespace Int64

instance addCommMonoid : AddCommMonoid Int64 where
  add_assoc := Int64.add_assoc
  zero_add := Int64.zero_add
  add_zero := Int64.add_zero
  add_comm := Int64.add_comm
  nsmul := nsmulRec

/-- Addition that stops at the ends of the range. -/
def saturatingAdd (a b : Int64) : Int64 :=
  ofInt (max minValue.toInt (min maxValue.toInt (a.toInt + b.toInt)))

/-- Subtraction that stops at the ends of the range. -/
def saturatingSub (a b : Int64) : Int64 :=
  ofInt (max minValue.toInt (min maxValue.toInt (a.toInt - b.toInt)))

/-- Multiplication that stops at the ends of the range. -/
def saturatingMul (a b : Int64) : Int64 :=
  ofInt (max minValue.toInt (min maxValue.toInt (a.toInt * b.toInt)))

theorem toInt_saturatingMul (a b : Int64) : (a.saturatingMul b).toInt =
    max minValue.toInt (min maxValue.toInt (a.toInt * b.toInt)) := by
  have least := Int64.toInt_minValue
  have most := Int64.toInt_maxValue
  rw [saturatingMul, toInt_ofInt_of_le (by omega) (by omega)]

theorem toInt_saturatingAdd (a b : Int64) : (a.saturatingAdd b).toInt =
    max minValue.toInt (min maxValue.toInt (a.toInt + b.toInt)) := by
  have least := Int64.toInt_minValue
  have most := Int64.toInt_maxValue
  rw [saturatingAdd, toInt_ofInt_of_le (by omega) (by omega)]

theorem toInt_saturatingSub (a b : Int64) : (a.saturatingSub b).toInt =
    max minValue.toInt (min maxValue.toInt (a.toInt - b.toInt)) := by
  have least := Int64.toInt_minValue
  have most := Int64.toInt_maxValue
  rw [saturatingSub, toInt_ofInt_of_le (by omega) (by omega)]

/-- A difference that saturates reaches a non-negative limit exactly when the true one does. -/
theorem le_saturatingSub_iff {a b limit : Int64} (nonneg : 0 ≤ limit) :
    limit ≤ a.saturatingSub b ↔ limit.toInt ≤ a.toInt - b.toInt := by
  have least := Int64.toInt_minValue
  have most := Int64.toInt_maxValue
  have below := limit.toInt_le
  have positive : 0 ≤ limit.toInt := Int64.le_iff_toInt_le.mp nonneg
  rw [Int64.le_iff_toInt_le, toInt_saturatingSub]
  omega

/-- A difference that is not negative saturates at the upper end only. -/
theorem toInt_saturatingSub_of_nonneg {a b : Int64} (nonneg : 0 ≤ a.toInt - b.toInt) :
    (a.saturatingSub b).toInt = min (a.toInt - b.toInt) maxValue.toInt := by
  have least := Int64.toInt_minValue
  have most := Int64.toInt_maxValue
  rw [toInt_saturatingSub]
  omega

theorem toInt_add_of_bounds {a b : Int64} (lower : -2 ^ 63 ≤ a.toInt + b.toInt)
    (upper : a.toInt + b.toInt < 2 ^ 63) : (a + b).toInt = a.toInt + b.toInt := by
  rw [toInt_add]
  exact Int.bmod_eq_of_le (by omega) (by omega)

theorem toInt_sub_of_bounds {a b : Int64} (lower : -2 ^ 63 ≤ a.toInt - b.toInt)
    (upper : a.toInt - b.toInt < 2 ^ 63) : (a - b).toInt = a.toInt - b.toInt := by
  rw [toInt_sub]
  exact Int.bmod_eq_of_le (by omega) (by omega)

theorem toInt_mul_of_bounds {a b : Int64} (lower : -2 ^ 63 ≤ a.toInt * b.toInt)
    (upper : a.toInt * b.toInt < 2 ^ 63) : (a * b).toInt = a.toInt * b.toInt := by
  rw [toInt_mul]
  exact Int.bmod_eq_of_le (by omega) (by omega)

/-- Every integer but the smallest has an absolute value. -/
theorem toInt_abs_of_bounds {a : Int64} (lower : -2 ^ 63 < a.toInt) : a.abs.toInt = |a.toInt| := by
  have proper : a.toBitVec ≠ BitVec.intMin 64 := by
    intro smallest
    have value : a.toInt = (BitVec.intMin 64).toInt := congrArg BitVec.toInt smallest
    rw [BitVec.toInt_intMin] at value
    omega
  have absolute := BitVec.toInt_abs_eq_natAbs_of_ne_intMin proper
  rw [← Int.natCast_natAbs]
  exact absolute

/-- The smallest integer, of which wrapping leaves no absolute value, keeps its size too. -/
theorem abs_toInt_abs (a : Int64) : |a.abs.toInt| = |a.toInt| := by
  by_cases smallest : a = minValue
  · subst smallest
    rfl
  · have lower := a.le_toInt
    have proper : a.toInt ≠ -2 ^ 63 := by
      intro equal
      exact smallest (Int64.toInt_inj.mp (equal.trans toInt_minValue.symm))
    rw [toInt_abs_of_bounds (by omega), abs_abs]

/-- Wrapping never enlarges an integer. -/
theorem abs_bmod_le (x : ℤ) : |x.bmod (2 ^ 64)| ≤ |x| := by
  rw [Int.bmod_def]
  rcases le_total 0 x with nonneg | nonpos
  · rw [abs_of_nonneg nonneg, abs_le]
    split <;> omega
  · rw [abs_of_nonpos nonpos, abs_le]
    split <;> omega

theorem abs_toInt_sub_le (a b : Int64) : |(a - b).toInt| ≤ |a.toInt - b.toInt| := by
  rw [Int64.toInt_sub]
  exact abs_bmod_le _

theorem abs_toInt_mul_le (a b : Int64) : |(a * b).toInt| ≤ |a.toInt * b.toInt| := by
  rw [Int64.toInt_mul]
  exact abs_bmod_le _

theorem toInt_max (a b : Int64) : (max a b).toInt = max a.toInt b.toInt := by
  change (if a ≤ b then b else a).toInt = _
  simp only [max_def, Int64.le_iff_toInt_le]
  split <;> rfl

/-- A difference that has an absolute value is positive between different integers. -/
theorem abs_sub_pos_iff {a b : Int64} (fits : a - b ≠ minValue) : (a - b).abs > 0 ↔ a ≠ b := by
  have lower := (a - b).le_toInt
  have proper : (a - b).toInt ≠ -2 ^ 63 := by
    intro smallest
    exact fits (Int64.toInt_inj.mp (smallest.trans toInt_minValue.symm))
  have absolute := toInt_abs_of_bounds (show -2 ^ 63 < (a - b).toInt by omega)
  rw [gt_iff_lt, Int64.lt_iff_toInt_lt, absolute]
  change 0 < |(a - b).toInt| ↔ a ≠ b
  rw [abs_pos, ne_eq, ne_eq, not_iff_not, ← Int64.toInt_zero, Int64.toInt_inj,
    Int64.sub_eq_iff_eq_add, Int64.zero_add]

/-- A sum of non-negative integers that does not fit wraps around to a negative one. -/
theorem toInt_add_neg_of_overflow {a b : Int64} (overflows : 2 ^ 63 ≤ a.toInt + b.toInt) :
    (a + b).toInt < 0 := by
  have left := a.toInt_lt
  have right := b.toInt_lt
  rw [toInt_add, Int.bmod_def]
  split <;> omega

/-- A sum of non-negative integers that fits does not wrap. -/
theorem toInt_sum_of_nonneg {xs : List Int64} (nonneg : ∀ x ∈ xs, 0 ≤ x.toInt)
    (fits : (xs.map toInt).sum < 2 ^ 63) : xs.sum.toInt = (xs.map toInt).sum := by
  induction xs with
  | nil => rfl
  | cons x rest ih =>
    have head := nonneg x List.mem_cons_self
    have tail : 0 ≤ (rest.map toInt).sum := List.sum_nonneg (by
      intro y member
      obtain ⟨z, inside, rfl⟩ := List.mem_map.mp member
      exact nonneg z (List.mem_cons_of_mem _ inside))
    simp only [List.map_cons, List.sum_cons] at fits ⊢
    have exact := ih (fun y member => nonneg y (List.mem_cons_of_mem _ member)) (by omega)
    rw [toInt_add_of_bounds (by omega) (by omega), exact]

end Int64

namespace UInt64

theorem toNat_succ {a : UInt64} (room : a.toNat + 1 < 2 ^ 64) : (a + 1).toNat = a.toNat + 1 := by
  rw [UInt64.toNat_add]
  exact Nat.mod_eq_of_lt room

/-- A counter that is not zero has a predecessor. -/
theorem exists_toNat_succ {a : UInt64} (positive : 0 < a.toNat) :
    ∃ b : UInt64, b.toNat + 1 = a.toNat := by
  have bound := a.toNat_lt
  refine ⟨UInt64.ofNat (a.toNat - 1), ?_⟩
  rw [UInt64.toNat_ofNat_of_lt' (by change _ < 2 ^ 64; omega)]
  omega

theorem ofNat_eq_zero_iff (n : ℕ) : UInt64.ofNat n = 0 ↔ 2 ^ 64 ∣ n := by
  rw [← UInt64.toNat_inj, UInt64.toNat_ofNat', Nat.dvd_iff_mod_eq_zero]
  rfl

theorem succ_ne_zero {a : UInt64} (room : a.toNat + 1 < 2 ^ 64) : a + 1 ≠ 0 := by
  intro wrapped
  have zero := toNat_succ room
  rw [wrapped] at zero
  exact absurd zero (Nat.succ_ne_zero _).symm

@[simp] theorem succ_sub_one (a : UInt64) : a + 1 - 1 = a := by grind

/-- The predecessor of a counter that is not zero is below it. -/
theorem pred_le {a : UInt64} (positive : a ≠ 0) : a - 1 ≤ a := by
  have nonzero : a.toNat ≠ 0 := fun zero => positive (UInt64.toNat_inj.mp zero)
  have bound := a.toNat_lt
  rw [le_iff_toNat_le, UInt64.toNat_sub]
  change (2 ^ 64 - 1 + a.toNat) % 2 ^ 64 ≤ a.toNat
  omega

end UInt64
