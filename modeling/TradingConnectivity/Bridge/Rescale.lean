import Mathlib.Algebra.Order.Field.Rat
import TradingConnectivity.Decimal.Numeral
import TradingConnectivity.ToMathlib.FixedWidth

/-! # Prices and quantities with eight decimals

The tables keep prices and quantities with eight decimals, while a message has the decimals of its
instrument. `toD8_exact_iff` says for which mantissas and scales a row keeps the value that the
message has, cut after eight decimals.
-/

namespace TradingConnectivity

namespace Decimal

private theorem truncate_intCast_div (k : ℤ) (d : ℕ) : truncate (k / d : ℚ) = k.tdiv d := by
  cases k with
  | ofNat n => exact truncate_natCast_div n d
  | negSucc n =>
    have opposite : ((Int.negSucc n : ℤ) / d : ℚ) = -((n + 1 : ℕ) / d : ℚ) := by
      rw [Int.cast_negSucc, neg_div]
    rw [opposite, truncate_neg, truncate_natCast_div, Int.negSucc_eq, Int.neg_tdiv]
    rfl

end Decimal

namespace Bridge

open Decimal

/-- A mantissa of the scale at eight decimals. The powers wrap around, and once one is zero the
division panics, which is `none`. -/
def toD8 (mantissa : Int64) (scale : UInt8) : Option Int64 :=
  if scale.toNat = 8 then some mantissa
  else if scale.toNat < 8 then some (mantissa * .ofNat (10 ^ (8 - scale.toNat)))
  else
    let divisor := Int64.ofNat (10 ^ (scale.toNat - 8))
    if divisor = 0 then none else some (mantissa / divisor)

/-- The value of a mantissa with eight decimals, cut after the last of them. -/
def cutAtD8 (mantissa : Int64) (scale : UInt8) : ℤ :=
  truncate ((mantissa.toInt : ℚ) / 10 ^ scale.toNat * 10 ^ 8)

private theorem cutAtD8_of_le {mantissa : Int64} {scale : UInt8} (coarse : scale.toNat ≤ 8) :
    cutAtD8 mantissa scale = mantissa.toInt * 10 ^ (8 - scale.toNat) := by
  have split : (10 : ℚ) ^ 8 = 10 ^ (8 - scale.toNat) * 10 ^ scale.toNat := by
    rw [← pow_add, Nat.sub_add_cancel coarse]
  have exact : (mantissa.toInt : ℚ) / 10 ^ scale.toNat * 10 ^ 8 =
      (mantissa.toInt * 10 ^ (8 - scale.toNat) : ℤ) := by
    rw [split]
    push_cast
    field_simp
  rw [cutAtD8, exact, truncate_intCast]

private theorem cutAtD8_of_gt {mantissa : Int64} {scale : UInt8} (fine : 8 < scale.toNat) :
    cutAtD8 mantissa scale = mantissa.toInt.tdiv (10 ^ (scale.toNat - 8) : ℕ) := by
  have split : (10 : ℚ) ^ scale.toNat = 10 ^ (scale.toNat - 8) * 10 ^ 8 := by
    rw [← pow_add, Nat.sub_add_cancel fine.le]
  have exact : (mantissa.toInt : ℚ) / 10 ^ scale.toNat * 10 ^ 8 =
      mantissa.toInt / (10 ^ (scale.toNat - 8) : ℕ) := by
    rw [split]
    push_cast
    field_simp
  rw [cutAtD8, exact, truncate_intCast_div]

/-- A power of ten that has not wrapped around. -/
theorem toInt_power {k : ℕ} (small : k ≤ 18) : (Int64.ofNat (10 ^ k)).toInt = (10 ^ k : ℕ) := by
  have fits : 10 ^ k ≤ 10 ^ 18 := Nat.pow_le_pow_right (by decide) small
  exact Int64.toInt_ofNat_of_lt (by omega)

/-- A power of ten is even, and so it is when it has wrapped around. -/
private theorem power_ne_neg_one {k : ℕ} (positive : k ≠ 0) : Int64.ofNat (10 ^ k) ≠ -1 := by
  intro odd
  obtain ⟨m, rfl⟩ := Nat.exists_eq_succ_of_ne_zero positive
  have value : (Int64.ofNat (10 ^ (m + 1))).toInt = -1 := by
    rw [odd]
    rfl
  have size : (Int64.size : ℤ) = 2 * 2 ^ 63 := by decide
  have parts := Int.bmod_add_bdiv ((10 ^ (m + 1) : ℕ) : ℤ) Int64.size
  rw [← Int64.toInt_ofNat', value, size, pow_succ, mul_assoc] at parts
  push_cast at parts
  omega

/-- A quotient is zero if the divisor is the greater one. -/
private theorem tdiv_eq_zero_iff {a b : ℤ} (nonzero : b ≠ 0) : a.tdiv b = 0 ↔ |a| < |b| := by
  have positive := Int.natAbs_pos.mpr nonzero
  rw [← Int.natAbs_eq_zero, Int.natAbs_tdiv, Int.abs_eq_natAbs, Int.abs_eq_natAbs, Int.ofNat_lt]
  exact Nat.div_eq_zero_iff_lt positive

/-- The row keeps the value of the message, cut after eight decimals. -/
def Keeps (mantissa : Int64) (scale : UInt8) : Prop :=
  ∃ row, toD8 mantissa scale = some row ∧ row.toInt = cutAtD8 mantissa scale

private theorem keeps_of_le {mantissa : Int64} {scale : UInt8} (coarse : scale.toNat ≤ 8) :
    Keeps mantissa scale ↔ -2 ^ 63 ≤ mantissa.toInt * 10 ^ (8 - scale.toNat) ∧
      mantissa.toInt * 10 ^ (8 - scale.toNat) < 2 ^ 63 := by
  have rescaled : toD8 mantissa scale = some (mantissa * .ofNat (10 ^ (8 - scale.toNat))) := by
    rcases coarse.eq_or_lt with same | below
    · simp [toD8, same]
    · rw [toD8, if_neg below.ne, if_pos below]
  have power := toInt_power (k := 8 - scale.toNat) (by omega)
  push_cast at power
  rw [Keeps, cutAtD8_of_le coarse, rescaled, ← power]
  constructor
  · rintro ⟨row, ⟨⟩, exact⟩
    rw [← exact]
    exact ⟨Int64.le_toInt _, Int64.toInt_lt _⟩
  · rintro ⟨lower, upper⟩
    exact ⟨_, rfl, Int64.toInt_mul_of_bounds lower upper⟩

private theorem keeps_of_gt {mantissa : Int64} {scale : UInt8} (fine : 8 < scale.toNat) :
    Keeps mantissa scale ↔
      scale.toNat ≤ 26 ∨ |mantissa.toInt| < |(Int64.ofNat (10 ^ (scale.toNat - 8))).toInt| := by
  have rescaled : toD8 mantissa scale =
      if Int64.ofNat (10 ^ (scale.toNat - 8)) = 0 then none
      else some (mantissa / .ofNat (10 ^ (scale.toNat - 8))) := by
    rw [toD8, if_neg fine.ne', if_neg fine.le.not_gt]
  have even := power_ne_neg_one (k := scale.toNat - 8) (by omega)
  rw [Keeps, cutAtD8_of_gt fine, rescaled]
  by_cases small : scale.toNat ≤ 26
  · have power := toInt_power (k := scale.toNat - 8) (by omega)
    have nonzero : Int64.ofNat (10 ^ (scale.toNat - 8)) ≠ 0 := by
      intro zero
      rw [zero] at power
      exact pow_ne_zero _ (by decide) (Int.ofNat_eq_zero.mp power.symm)
    rw [if_neg nonzero, ← power]
    exact iff_of_true ⟨_, rfl, Int64.toInt_div_of_ne_right _ _ even⟩ (.inl small)
  · -- the power exceeds every mantissa, so that nothing of the value is left
    have large : 10 ^ 19 ≤ 10 ^ (scale.toNat - 8) := Nat.pow_le_pow_right (by decide) (by omega)
    have vanishes : mantissa.toInt.tdiv (10 ^ (scale.toNat - 8) : ℕ) = 0 := by
      have lower := mantissa.le_toInt
      have upper := mantissa.toInt_lt
      rw [tdiv_eq_zero_iff (by omega), abs_lt, Nat.abs_cast]
      omega
    rw [vanishes, or_iff_right small]
    by_cases zero : Int64.ofNat (10 ^ (scale.toNat - 8)) = 0
    · rw [if_pos zero, zero]
      exact iff_of_false (by simp) (abs_nonneg _).not_gt
    · have nonzero : (Int64.ofNat (10 ^ (scale.toNat - 8))).toInt ≠ 0 :=
        fun same => zero (Int64.toInt_inj.mp same)
      rw [if_neg zero, ← tdiv_eq_zero_iff nonzero, ← Int64.toInt_div_of_ne_right _ _ even]
      simp

/-- A row keeps the value of the message exactly if the mantissa with eight decimals fits, when the
scale is at most eight. A greater scale cuts decimals up to the scale 26; beyond it the power wraps
around, and the row is right only where the quotient happens to be zero. -/
theorem toD8_exact_iff (mantissa : Int64) (scale : UInt8) :
    (∃ row, toD8 mantissa scale = some row ∧ row.toInt = cutAtD8 mantissa scale) ↔
      if scale.toNat ≤ 8 then -2 ^ 63 ≤ mantissa.toInt * 10 ^ (8 - scale.toNat) ∧
        mantissa.toInt * 10 ^ (8 - scale.toNat) < 2 ^ 63
      else scale.toNat ≤ 26 ∨
        |mantissa.toInt| < |(Int64.ofNat (10 ^ (scale.toNat - 8))).toInt| := by
  by_cases coarse : scale.toNat ≤ 8
  · rw [if_pos coarse]
    exact keeps_of_le coarse
  · rw [if_neg coarse]
    exact keeps_of_gt (Nat.lt_of_not_le coarse)

end Bridge

end TradingConnectivity
