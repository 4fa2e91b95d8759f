import Mathlib.Data.Nat.Digits.Defs
import Mathlib.Data.Rat.Floor

/-! # Decimal numerals

A numeral is a sign, digits and possibly a fraction, and denotes a rational number. Scaled by a
power of ten and truncated toward zero, its value is an integer whose last digits are the first ones
of the fraction.
-/

namespace TradingConnectivity.Decimal

/-! ## Digit strings -/

/-- The last digit of a number. -/
def lastDigit (n : ℕ) : Fin 10 := Fin.ofNat 10 n

/-- The character of a digit. -/
def digitChar (d : Fin 10) : Char := Char.ofNat (48 + d)

theorem digitChar_toNat : ∀ d : Fin 10, (digitChar d).toNat = 48 + d := by decide

theorem digitChar_isDigit : ∀ d : Fin 10, (digitChar d).isDigit = true := by decide

/-- A text of digit characters is the text of a digit string. -/
theorem exists_digits {s : List Char} (digits : s.all Char.isDigit = true) :
    ∃ ds : List (Fin 10), s = ds.map digitChar := by
  induction s with
  | nil => exact ⟨[], rfl⟩
  | cons c rest ih =>
    rw [List.all_cons, Bool.and_eq_true] at digits
    obtain ⟨ds, rfl⟩ := ih digits.2
    have range := digits.1
    rw [Char.isDigit, Bool.and_eq_true, decide_eq_true_iff, decide_eq_true_iff,
      ge_iff_le, UInt32.le_iff_toNat_le, UInt32.le_iff_toNat_le] at range
    have low : 48 ≤ c.toNat := range.1
    have high : c.toNat ≤ 57 := range.2
    refine ⟨⟨c.toNat - 48, by omega⟩ :: ds, ?_⟩
    have same : 48 + (c.toNat - 48) = c.toNat := by omega
    rw [List.map_cons, digitChar, same, Char.ofNat_toNat]

theorem digitChar_utf8Size : ∀ d : Fin 10, (digitChar d).utf8Size = 1 := by decide

/-- The value of a digit string, its first digit being the most significant one. -/
def digitsValue (digits : List (Fin 10)) : ℕ := Nat.ofDigits 10 (digits.map Fin.val).reverse

@[simp] theorem digitsValue_nil : digitsValue [] = 0 := rfl

private theorem digitsValue_append (front back : List (Fin 10)) :
    digitsValue (front ++ back) = digitsValue front * 10 ^ back.length + digitsValue back := by
  simp only [digitsValue, List.map_append, List.reverse_append, Nat.ofDigits_append,
    List.length_reverse, List.length_map]
  rw [Nat.add_comm, Nat.mul_comm]

theorem digitsValue_concat (digits : List (Fin 10)) (d : Fin 10) :
    digitsValue (digits ++ [d]) = digitsValue digits * 10 + d := by
  rw [digitsValue_append]
  simp [digitsValue]

private theorem digitsValue_lt (digits : List (Fin 10)) :
    digitsValue digits < 10 ^ digits.length := by
  have bound := Nat.ofDigits_lt_base_pow_length (b := 10) (l := (digits.map Fin.val).reverse)
    (by decide) (by simp)
  simpa [digitsValue] using bound

@[simp] theorem digitsValue_zeros (n : ℕ) : digitsValue (List.replicate n 0) = 0 := by
  simp [digitsValue]

theorem digitsValue_eq_zero {digits : List (Fin 10)} :
    digitsValue digits = 0 ↔ ∀ d ∈ digits, d = 0 := by
  constructor
  · intro zero d mem
    obtain ⟨front, back, rfl⟩ := List.append_of_mem mem
    rw [← List.singleton_append, digitsValue_append, digitsValue_append] at zero
    have single : digitsValue [d] * 10 ^ back.length = 0 := by omega
    have value : digitsValue [d] = 0 := (Nat.mul_eq_zero.mp single).resolve_right (by positivity)
    simpa [digitsValue] using value
  · intro zeros
    rw [List.eq_replicate_of_mem zeros]
    simp

/-- The digits of a number without leading zeros. -/
def wholeDigits (n : ℕ) : List (Fin 10) :=
  if n = 0 then [0] else (Nat.digits 10 n).reverse.map lastDigit

/-- The last `k` digits of a number. -/
def lowDigits : ℕ → ℕ → List (Fin 10)
  | 0, _ => []
  | k + 1, n => lowDigits k (n / 10) ++ [lastDigit n]

private theorem wholeDigits_ne_nil (n : ℕ) : wholeDigits n ≠ [] := by
  rw [wholeDigits]
  by_cases zero : n = 0
  · simp [zero]
  · simp [zero, Nat.digits_ne_nil_iff_ne_zero]

@[simp] theorem digitsValue_wholeDigits (n : ℕ) : digitsValue (wholeDigits n) = n := by
  rw [wholeDigits]
  by_cases zero : n = 0
  · simp [zero, digitsValue]
  · have values : (Nat.digits 10 n).map (fun d => (lastDigit d).val) = Nat.digits 10 n := by
      refine List.map_congr_left (fun d mem => ?_) |>.trans (List.map_id _)
      exact Nat.mod_eq_of_lt (Nat.digits_lt_base (by decide) mem)
    rw [if_neg zero, digitsValue, List.map_map, List.map_reverse, List.reverse_reverse]
    exact (congrArg (Nat.ofDigits 10) values).trans (Nat.ofDigits_digits 10 n)

@[simp] theorem length_lowDigits (k n : ℕ) : (lowDigits k n).length = k := by
  induction k generalizing n with
  | zero => rfl
  | succ k ih => simp [lowDigits, ih]

@[simp] theorem digitsValue_lowDigits (k n : ℕ) : digitsValue (lowDigits k n) = n % 10 ^ k := by
  induction k generalizing n with
  | zero => simp [lowDigits, Nat.mod_one]
  | succ k ih =>
    have last : (lastDigit n).val = n % 10 := rfl
    rw [lowDigits, digitsValue_concat, ih, last, Nat.pow_succ, Nat.mul_comm (10 ^ k),
      Nat.mod_mul, Nat.mul_comm, Nat.add_comm]

/-! ## Numerals -/

/-- An optional minus sign, at least one digit and an optional fraction. -/
structure Numeral where
  negative : Bool
  whole : List (Fin 10)
  whole_ne_nil : whole ≠ []
  fraction : Option (List (Fin 10))
deriving DecidableEq, Repr

/-- Drop what follows the point of a rational number. -/
def truncate (q : ℚ) : ℤ := if 0 ≤ q then ⌊q⌋ else ⌈q⌉

theorem truncate_neg (q : ℚ) : truncate (-q) = -truncate q := by
  rcases lt_trichotomy q 0 with below | rfl | above
  · rw [truncate, truncate, if_pos (by linarith), if_neg (by linarith), Int.floor_neg]
  · rfl
  · rw [truncate, truncate, if_neg (by linarith), if_pos (by linarith), Int.ceil_neg]

theorem truncate_intCast (k : ℤ) : truncate (k : ℚ) = k := by
  rw [truncate, Int.floor_intCast, Int.ceil_intCast, ite_self]

theorem truncate_natCast_div (n d : ℕ) : truncate (n / d : ℚ) = (n / d : ℕ) := by
  rw [truncate, if_pos (by positivity), Rat.floor_natCast_div_natCast, Int.natCast_div]

namespace Numeral

variable (numeral : Numeral)

/-- The digits after the point. -/
def fractionDigits : List (Fin 10) := numeral.fraction.getD []

/-- The numeral as it is written. -/
def chars : List Char :=
  (if numeral.negative then ['-'] else []) ++ (numeral.whole.map digitChar ++
    match numeral.fraction with
    | none => []
    | some digits => '.' :: digits.map digitChar)

def text : String := String.ofList numeral.chars

/-- The numeral with the opposite sign. -/
def neg : Numeral := { numeral with negative := !numeral.negative }

theorem text_ne_empty : numeral.text ≠ "" := by
  intro empty
  have chars := congrArg String.toList empty
  rw [text, String.toList_ofList] at chars
  simp [Numeral.chars, numeral.whole_ne_nil] at chars

/-- The opposite of a numeral without a sign is written with a minus in front. -/
theorem negative_neg (unsigned : numeral.negative = false) : numeral.neg.negative = true := by
  rw [neg, unsigned]
  rfl

theorem text_neg (unsigned : numeral.negative = false) :
    numeral.neg.text = "-" ++ numeral.text := by
  apply String.toList_inj.mp
  rw [String.toList_append, text, text, String.toList_ofList, String.toList_ofList]
  simp [chars, neg, unsigned]

def sign : ℤ := if numeral.negative then -1 else 1

theorem sign_cases : numeral.sign = -1 ∨ numeral.sign = 1 := by
  rw [sign]
  cases numeral.negative <;> simp

/-- All digits as one natural number. -/
def mantissa : ℕ := digitsValue (numeral.whole ++ numeral.fractionDigits)

def magnitude : ℚ := numeral.mantissa / (10 ^ numeral.fractionDigits.length : ℕ)

/-- The number a numeral denotes. -/
def value : ℚ := if numeral.negative then -numeral.magnitude else numeral.magnitude

/-- The value in units of ten to the minus `n`, truncated toward zero. -/
def scaled (n : ℕ) : ℤ := truncate (numeral.value * 10 ^ n)

/-- The first `n` digits after the point, with zeros where the numeral ends before. -/
def kept (n : ℕ) : List (Fin 10) := (numeral.fractionDigits ++ List.replicate n 0).take n

@[simp] theorem length_kept (n : ℕ) : (numeral.kept n).length = n := by
  simp [kept]

theorem kept_ne_nil {n : ℕ} (positive : n ≠ 0) : numeral.kept n ≠ [] := by
  intro empty
  have length := numeral.length_kept n
  rw [empty] at length
  exact positive length.symm

theorem kept_lt (n : ℕ) : digitsValue (numeral.kept n) < 10 ^ n := by
  have bound := digitsValue_lt (numeral.kept n)
  rwa [length_kept] at bound

@[simp] theorem kept_neg (n : ℕ) : numeral.neg.kept n = numeral.kept n := rfl

theorem scaled_neg (n : ℕ) : numeral.neg.scaled n = -numeral.scaled n := by
  have opposite : numeral.neg.value = -numeral.value := by
    change (if !numeral.negative then -numeral.magnitude else numeral.magnitude) = _
    rw [value]
    cases numeral.negative <;> simp
  rw [scaled, scaled, opposite, neg_mul, truncate_neg]

/-- The digits behind the first `n` ones after the point. -/
def lost (n : ℕ) : List (Fin 10) := (numeral.fractionDigits ++ List.replicate n 0).drop n

private theorem length_lost (n : ℕ) : (numeral.lost n).length = numeral.fractionDigits.length := by
  simp [lost]

private theorem fraction_split (n : ℕ) : digitsValue numeral.fractionDigits * 10 ^ n =
    digitsValue (numeral.kept n) * 10 ^ numeral.fractionDigits.length +
      digitsValue (numeral.lost n) := by
  have parts := digitsValue_append (numeral.kept n) (numeral.lost n)
  rw [kept, lost, List.take_append_drop, ← lost, ← kept, length_lost, digitsValue_append,
    digitsValue_zeros, List.length_replicate, Nat.add_zero] at parts
  exact parts

/-- Scaling the fraction keeps its first digits. -/
private theorem fraction_div (n : ℕ) :
    digitsValue numeral.fractionDigits * 10 ^ n / 10 ^ numeral.fractionDigits.length =
      digitsValue (numeral.kept n) := by
  have small := digitsValue_lt (numeral.lost n)
  rw [length_lost] at small
  rw [fraction_split, Nat.add_comm, Nat.add_mul_div_right _ _ (by positivity),
    Nat.div_eq_of_lt small, Nat.zero_add]

/-- Scaling and truncating appends the first digits of the fraction to the whole part. -/
theorem scaled_magnitude (n : ℕ) :
    numeral.mantissa * 10 ^ n / 10 ^ numeral.fractionDigits.length =
      digitsValue numeral.whole * 10 ^ n + digitsValue (numeral.kept n) := by
  rw [mantissa, digitsValue_append, ← fraction_div, Nat.add_mul, Nat.mul_right_comm,
    Nat.add_comm, Nat.add_mul_div_right _ _ (by positivity), Nat.add_comm]

theorem scaled_eq (n : ℕ) :
    numeral.scaled n = numeral.sign *
      (digitsValue numeral.whole * 10 ^ n + digitsValue (numeral.kept n) : ℕ) := by
  have positive : truncate (numeral.magnitude * 10 ^ n) =
      (digitsValue numeral.whole * 10 ^ n + digitsValue (numeral.kept n) : ℕ) := by
    have quotient : numeral.magnitude * 10 ^ n =
        ((numeral.mantissa * 10 ^ n : ℕ) / (10 ^ numeral.fractionDigits.length : ℕ) : ℚ) := by
      rw [magnitude]
      push_cast
      ring
    rw [quotient, truncate_natCast_div, scaled_magnitude]
  rw [scaled, value, sign]
  cases numeral.negative with
  | false => simp [positive]
  | true => simp [neg_mul, truncate_neg, positive]

private theorem digitsValue_lost_eq_zero (n : ℕ) :
    digitsValue (numeral.lost n) = 0 ↔ ∀ d ∈ numeral.fractionDigits.drop n, d = 0 := by
  rw [digitsValue_eq_zero, lost, List.drop_append]
  constructor
  · intro zeros d mem
    exact zeros d (List.mem_append_left _ mem)
  · intro zeros d mem
    rcases List.mem_append.mp mem with digit | padding
    · exact zeros d digit
    · exact List.eq_of_mem_replicate (List.mem_of_mem_drop padding)

/-- Nothing is lost in truncation if the digits behind the first `n` after the point are zero. -/
theorem scaled_div_eq_value_iff (n : ℕ) : (numeral.scaled n : ℚ) / 10 ^ n = numeral.value ↔
    ∀ d ∈ numeral.fractionDigits.drop n, d = 0 := by
  have value : numeral.value = numeral.sign * numeral.magnitude := by
    rw [Numeral.value, sign]
    cases numeral.negative <;> simp
  have nonzero : (numeral.sign : ℚ) ≠ 0 := by
    rcases numeral.sign_cases with sign | sign <;> rw [sign] <;> norm_num
  have split : numeral.mantissa * 10 ^ n =
      (digitsValue numeral.whole * 10 ^ n + digitsValue (numeral.kept n)) *
        10 ^ numeral.fractionDigits.length + digitsValue (numeral.lost n) := by
    rw [mantissa, digitsValue_append, Nat.add_mul, fraction_split]
    ring
  rw [← digitsValue_lost_eq_zero, value, numeral.scaled_eq, Int.cast_mul, mul_div_assoc,
    mul_right_inj' nonzero, magnitude, div_eq_div_iff (by positivity) (by positivity)]
  norm_cast
  rw [split]
  omega

/-- The numeral with `places` digits after the point and these digits in all. -/
def ofMantissa (m places : ℕ) : Numeral :=
  ⟨false, wholeDigits (m / 10 ^ places), wholeDigits_ne_nil _, some (lowDigits places m)⟩

theorem length_ofMantissa (m places : ℕ) :
    (ofMantissa m places).fractionDigits.length = places := length_lowDigits places m

theorem mantissa_ofMantissa (m places : ℕ) : (ofMantissa m places).mantissa = m := by
  have fraction : (ofMantissa m places).fractionDigits = lowDigits places m := rfl
  rw [mantissa, digitsValue_append, fraction, length_lowDigits, digitsValue_lowDigits]
  exact (congrArg (· * 10 ^ places + m % 10 ^ places) (digitsValue_wholeDigits _)).trans
    (Nat.div_add_mod' m (10 ^ places))

theorem sign_unsigned (unsigned : numeral.negative = false) : numeral.sign = 1 := by
  rw [sign, unsigned]
  rfl

theorem scaled_nonneg (unsigned : numeral.negative = false) (n : ℕ) : 0 ≤ numeral.scaled n := by
  rw [scaled_eq, sign_unsigned numeral unsigned, one_mul]
  exact Int.natCast_nonneg _

end Numeral

end TradingConnectivity.Decimal
