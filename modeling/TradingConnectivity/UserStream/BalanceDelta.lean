import TradingConnectivity.Normalize.ParseScaled
import TradingConnectivity.UserStream.Normalizer

/-! # Signed amounts

The parser of the user data stream also adds the digits after the point to the signed whole part,
so a debit comes out too high by twice these digits. At scale one it refuses every fraction.
-/

namespace TradingConnectivity.UserStream

open Decimal
open Normalize (takeBytes_digits byteLength_digits parseInt64_digits parseInt64_kept trim_numeral
  takeWhile_numeral dropWhile_numeral kept_digits signed_whole_ne_nil whole_fits toInt_parts
  parts_eq parts_exact_iff)
open Reconcile

/-! ## The scale -/

private theorem divisions_pow {fuel n : ℕ} (enough : n ≤ fuel) :
    scaleDigits.divisions fuel (10 ^ n) = n := by
  induction fuel generalizing n with
  | zero =>
    obtain rfl := Nat.le_zero.mp enough
    rfl
  | succ fuel ih =>
    cases n with
    | zero => rfl
    | succ n =>
      have above : (1 : ℤ) < 10 ^ (n + 1) := one_lt_pow₀ (by decide) (by omega)
      have quotient : (10 : ℤ) ^ (n + 1) / 10 = 10 ^ n := by
        rw [pow_succ, Int.mul_ediv_cancel _ (by decide)]
      rw [scaleDigits.divisions, if_pos above, quotient, ih (by omega)]

/-- A power of ten of 64 bits has at most 18 zeros. -/
private theorem power_le {scale : Int64} {n : ℕ} (power : scale.toInt = 10 ^ n) : n ≤ 18 := by
  by_contra above
  have large : (10 : ℤ) ^ 19 ≤ 10 ^ n := pow_le_pow_right₀ (by decide) (by omega)
  have bound := scale.toInt_lt
  omega

private theorem scaleDigits_power {scale : Int64} {n : ℕ} (power : scale.toInt = 10 ^ n) :
    scaleDigits scale = n := by
  rw [scaleDigits, power, divisions_pow ((power_le power).trans (by decide))]

/-! ## Numerals -/

variable (numeral : Numeral)

/-- The digits kept after the point parse to their value unless the fraction is cut to nothing. -/
theorem parseFraction_numeral (decimal : String) {n : ℕ} (powerFits : n ≤ 18)
    (readable : n = 0 → numeral.fractionDigits = []) :
    parseFraction decimal n (numeral.fractionDigits.map digitChar) =
      pure (Int64.ofInt (digitsValue (numeral.kept n))) := by
  by_cases whole : numeral.fractionDigits = []
  · have zeros : digitsValue (numeral.kept n) = 0 := by simp [Numeral.kept, whole]
    rw [whole, zeros]
    rfl
  · have positive : n ≠ 0 := fun zero => whole (readable zero)
    have value := parseInt64_kept numeral powerFits (numeral.kept_ne_nil positive)
    have missing : n - min numeral.fractionDigits.length n = n - numeral.fractionDigits.length := by
      omega
    have cut : numeral.fractionDigits.take (min numeral.fractionDigits.length n) =
        numeral.fractionDigits.take n := by
      rw [Nat.min_comm, List.take_eq_take_iff]
      omega
    rw [parseFraction, if_neg (by simpa using whole)]
    dsimp only
    rw [byteLength_digits, takeBytes_digits, missing, cut, ← Option.pure_def, ExceptT.lift_pure,
      pure_bind, ← kept_digits, value]

/-- A fraction that is cut to nothing is refused. -/
private theorem parseFraction_cut (decimal : String) (present : numeral.fractionDigits ≠ []) :
    parseFraction decimal 0 (numeral.fractionDigits.map digitChar) =
      throw (.invalidDecimal decimal) := by
  rw [parseFraction, if_neg (by simpa using present)]
  dsimp only
  rw [Nat.min_zero, takeBytes_digits]
  rfl

theorem parseInteger_numeral (decimal : String)
    (fits : Int64.minValue.toInt ≤ numeral.sign * (digitsValue numeral.whole : ℤ) ∧
      numeral.sign * (digitsValue numeral.whole : ℤ) ≤ Int64.maxValue.toInt) :
    parseInteger decimal ((if numeral.negative then ['-'] else []) ++
      numeral.whole.map digitChar) =
        pure (Int64.ofInt (numeral.sign * digitsValue numeral.whole)) := by
  rw [parseInteger, if_neg (signed_whole_ne_nil numeral),
    parseInt64_digits _ numeral.whole_ne_nil fits]
  rfl

/-- The digits after the point are added to the signed whole part, whatever its sign. -/
theorem parseScaled_text {scale : Int64} {n : ℕ} (power : scale.toInt = 10 ^ n)
    (readable : n = 0 → numeral.fractionDigits = [])
    (lower : Int64.minValue.toInt ≤ numeral.scaled n)
    (upper : numeral.scaled n ≤ Int64.maxValue.toInt) :
    ∃ v : Int64, parseScaled numeral.text scale = pure v ∧
      v.toInt = numeral.scaled n +
        if numeral.negative then 2 * (digitsValue (numeral.kept n) : ℤ) else 0 := by
  have powerFits := power_le power
  have present : numeral.chars ≠ [] := by simp [Numeral.chars, numeral.whole_ne_nil]
  have same : scale = Int64.ofInt (10 ^ n) := by
    rw [← power, Int64.ofInt_toInt]
  refine ⟨Int64.ofInt (numeral.sign * digitsValue numeral.whole) *
    Int64.ofInt (10 ^ n) + Int64.ofInt (digitsValue (numeral.kept n)), ?_,
    (toInt_parts numeral powerFits lower upper).trans (parts_eq numeral n)⟩
  simp only [parseScaled, Numeral.text, String.toList_ofList, trim_numeral, if_neg present,
    takeWhile_numeral, dropWhile_numeral, scaleDigits_power power,
    parseInteger_numeral numeral _ (whole_fits numeral lower upper),
    parseFraction_numeral numeral _ powerFits readable]
  rw [same]
  rfl

/-- At scale one a fraction is refused. -/
private theorem parseScaled_refused {scale : Int64} (unit : scale.toInt = 10 ^ 0)
    (lower : Int64.minValue.toInt ≤ numeral.scaled 0)
    (upper : numeral.scaled 0 ≤ Int64.maxValue.toInt) (cut : numeral.fractionDigits ≠ []) :
    parseScaled numeral.text scale = throw (.invalidDecimal numeral.text) := by
  have present : numeral.chars ≠ [] := by simp [Numeral.chars, numeral.whole_ne_nil]
  simp only [parseScaled, Numeral.text, String.toList_ofList, trim_numeral, if_neg present,
    takeWhile_numeral, dropWhile_numeral, scaleDigits_power unit,
    parseInteger_numeral numeral _ (whole_fits numeral lower upper),
    parseFraction_cut numeral _ cut]
  rfl

/-- The parsed value is the truncated one unless the fraction is refused or digits after a minus
sign are lost. -/
theorem parseScaled_exact_iff {scale : Int64} {n : ℕ} (power : scale.toInt = 10 ^ n)
    (lower : Int64.minValue.toInt ≤ numeral.scaled n)
    (upper : numeral.scaled n ≤ Int64.maxValue.toInt) :
    (∃ v : Int64, parseScaled numeral.text scale = pure v ∧ v.toInt = numeral.scaled n) ↔
      (n = 0 → numeral.fractionDigits = []) ∧
        (numeral.negative = false ∨ ∀ d ∈ numeral.kept n, d = 0) := by
  by_cases readable : n = 0 → numeral.fractionDigits = []
  · obtain ⟨v, parsed, value⟩ := parseScaled_text numeral power readable lower upper
    rw [and_iff_right readable, ← parts_exact_iff numeral value]
    constructor
    · rintro ⟨w, again, exact⟩
      obtain rfl := Except.ok.inj (Option.some.inj (parsed.symm.trans again))
      exact exact
    · intro exact
      exact ⟨v, parsed, exact⟩
  · obtain ⟨rfl, cut⟩ := Classical.not_imp.mp readable
    constructor
    · rintro ⟨v, parsed, -⟩
      rw [parseScaled_refused numeral power lower upper cut] at parsed
      cases parsed
    · rintro ⟨harmless, -⟩
      exact absurd harmless readable

/-- A decimal without sign is parsed to its truncated value, and with a minus in front to the
opposite. -/
def KeepsSign (scale : Int64) (n : ℕ) : Prop :=
  ∃ v w : Int64, parseScaled numeral.text scale = pure v ∧ v.toInt = numeral.scaled n ∧
    parseScaled ("-" ++ numeral.text) scale = pure w ∧ w.toInt = -v.toInt

private theorem keepsSign_iff (unsigned : numeral.negative = false) {scale : Int64} {n : ℕ}
    (power : scale.toInt = 10 ^ n) (upper : numeral.scaled n ≤ Int64.maxValue.toInt) :
    KeepsSign numeral scale n ↔
      (n = 0 → numeral.fractionDigits = []) ∧ ∀ d ∈ numeral.kept n, d = 0 := by
  have nonneg := numeral.scaled_nonneg unsigned n
  have least := Int64.toInt_minValue
  have most := Int64.toInt_maxValue
  have opposite := numeral.scaled_neg n
  have plus := parseScaled_exact_iff numeral power (by omega) upper
  have minus := parseScaled_exact_iff numeral.neg power (by omega) (by omega)
  rw [Numeral.text_neg numeral unsigned, opposite, numeral.negative_neg unsigned,
    Numeral.kept_neg] at minus
  constructor
  · rintro ⟨v, w, parsed, exact, negated, sum⟩
    obtain ⟨readable, zeros⟩ := minus.mp ⟨w, negated, by omega⟩
    exact ⟨readable, zeros.resolve_left (by decide)⟩
  · rintro ⟨readable, zeros⟩
    obtain ⟨v, parsed, exact⟩ := plus.mpr ⟨readable, .inl unsigned⟩
    obtain ⟨w, negated, sum⟩ := minus.mpr ⟨readable, .inr zeros⟩
    exact ⟨v, w, parsed, exact, negated, by omega⟩

/-! ## Balance updates -/

/-- A balance update is normalized to a delta of this amount. -/
def EmitsDelta (normalizer : Normalizer) (upd : RawBalanceUpdate) (amount : ℤ) : Prop :=
  ∃ d : BalanceDelta, normalizer.normalize (.balanceUpdate upd) = pure (.balanceDelta d) ∧
    d.asset = upd.asset ∧ d.deltaScaled.toInt = amount

private theorem emitsDelta_iff (normalizer : Normalizer) (upd : RawBalanceUpdate) (amount : ℤ) :
    EmitsDelta normalizer upd amount ↔
      ∃ v : Int64, parseScaled upd.deltaRaw balanceScale = pure v ∧ v.toInt = amount := by
  constructor
  · rintro ⟨d, normalized, -, exact⟩
    rw [Normalizer.normalize] at normalized
    rcases parsed : parseScaled upd.deltaRaw balanceScale with _ | _ | v
    · rw [parsed] at normalized
      cases normalized
    · rw [parsed] at normalized
      cases normalized
    · rw [parsed] at normalized
      obtain rfl := NormalizedEvent.balanceDelta.inj (Except.ok.inj (Option.some.inj normalized))
      exact ⟨v, rfl, exact⟩
  · rintro ⟨v, parsed, exact⟩
    rw [EmitsDelta, Normalizer.normalize, parsed]
    exact ⟨_, rfl, rfl, exact⟩

/-- A negated decimal is parsed to the opposite if it has only zeros in the digits kept and, at
scale one, no fraction; a balance update carries the signed amount unless it is a debit with other
digits there. -/
theorem signed_amounts_iff {s : Numeral} (unsigned : s.negative = false) {scale : Int64} {n : ℕ}
    (power : scale.toInt = 10 ^ n) (fits : s.scaled n ≤ Int64.maxValue.toInt)
    {amount : Numeral} (lower : Int64.minValue.toInt ≤ amount.scaled 8)
    (upper : amount.scaled 8 ≤ Int64.maxValue.toInt) (normalizer : Normalizer)
    {upd : RawBalanceUpdate} (raw : upd.deltaRaw = amount.text) :
    (KeepsSign s scale n ↔ (n = 0 → s.fractionDigits = []) ∧ ∀ d ∈ s.kept n, d = 0) ∧
      (EmitsDelta normalizer upd (amount.scaled 8) ↔
        amount.negative = false ∨ ∀ d ∈ amount.kept 8, d = 0) := by
  refine ⟨keepsSign_iff s unsigned power fits, ?_⟩
  have eight : balanceScale.toInt = 10 ^ 8 := rfl
  rw [emitsDelta_iff, raw, parseScaled_exact_iff amount eight lower upper]
  exact and_iff_right (fun zero => absurd zero (by decide))

/-- Half a unit. -/
def half : Numeral := .ofMantissa 5 1

def withdrawal : RawBalanceUpdate where
  eventTimeMs := 1573200697110
  asset := "BTC"
  deltaRaw := "-0.5"
  clearTimeMs := 1573200697068

private theorem half_scaled : half.scaled 8 = 50000000 := by
  rw [Numeral.scaled_eq]
  decide

private theorem half_neg_scaled : half.neg.scaled 8 = -50000000 := by
  rw [Numeral.scaled_neg, half_scaled]

theorem signed_amounts_iff_half : ¬KeepsSign half balanceScale 8 ∧
    ¬EmitsDelta (.new balanceScale balanceScale) withdrawal (half.neg.scaled 8) := by
  have eight : balanceScale.toInt = 10 ^ 8 := rfl
  have fits : half.scaled 8 ≤ Int64.maxValue.toInt := by rw [half_scaled]; decide
  have lower : Int64.minValue.toInt ≤ half.neg.scaled 8 := by rw [half_neg_scaled]; decide
  have upper : half.neg.scaled 8 ≤ Int64.maxValue.toInt := by rw [half_neg_scaled]; decide
  have raw : withdrawal.deltaRaw = half.neg.text := rfl
  have exact := signed_amounts_iff rfl eight fits lower upper (.new balanceScale balanceScale) raw
  rw [exact.1, exact.2]
  decide

/-- A debit of half a unit becomes a credit of half a unit. -/
theorem debit_credited : ¬KeepsSign half balanceScale 8 ∧
    ¬EmitsDelta (.new balanceScale balanceScale) withdrawal (half.neg.scaled 8) := by
  have positive : parseScaled "-0.5" balanceScale = pure 50000000 := rfl
  constructor
  · rintro ⟨v, w, -, exact, negated, sum⟩
    obtain rfl := Except.ok.inj (Option.some.inj (positive.symm.trans negated))
    rw [exact, half_scaled] at sum
    exact absurd sum (by decide)
  · rw [emitsDelta_iff, half_neg_scaled]
    rintro ⟨v, parsed, exact⟩
    obtain rfl := Except.ok.inj (Option.some.inj (positive.symm.trans parsed))
    exact absurd exact (by decide)

end TradingConnectivity.UserStream
