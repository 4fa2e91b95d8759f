import Mathlib.Data.List.Induction
import TradingConnectivity.Decimal.Numeral
import TradingConnectivity.Reconcile.Decimal

/-! # Parsing prices and quantities

Both market data connectors parse decimal strings in the same way: the integer part and the digits
after the point are parsed separately and added. On a numeral the sum has the sign of the integer
part alone, so the digits after the point of a negative number count upwards.
-/

namespace TradingConnectivity.Normalize

open Decimal
open Reconcile (trim isWhitespace parseInt64 takeBytes byteLength)

/-- How a call ends without a result: with an error that it returns, or by a panic. -/
inductive Failure (ε : Type)
  | returned (error : ε)
  | panicked
deriving DecidableEq, Repr

variable {ε : Type}

/-- The integer part; it may be missing. -/
def parseInteger (invalid : ε) (int : List Char) : Except (Failure ε) Int64 :=
  if int = [] then .ok 0
  else
    match parseInt64 int with
    | none => .error (.returned invalid)
    | some value => .ok value

/-- The fraction, padded with zeros and cut to `n` bytes; a cut inside a character panics. -/
def parseFraction (invalid : ε) (n : ℕ) (frac : List Char) : Except (Failure ε) Int64 :=
  if n = 0 then .ok 0
  else
    match takeBytes n (frac ++ List.replicate (n - frac.length) '0') with
    | none => .error .panicked
    | some kept =>
      match parseInt64 kept with
      | none => .error (.returned invalid)
      | some value => .ok value

/-- Convert a decimal string to an integer in units of ten to the minus `scale`. -/
def parseScaledWith (invalid : String → UInt32 → ε) (s : String) (scale : UInt32) :
    Except (Failure ε) Int64 := do
  let s := trim s.toList
  let int := s.takeWhile (· ≠ '.')
  let frac := (s.dropWhile (· ≠ '.')).drop 1
  let intVal ← parseInteger (invalid (String.ofList s) scale) int
  let fracVal ← parseFraction (invalid (String.ofList s) scale) scale.toNat frac
  return intVal * Int64.ofInt (10 ^ scale.toNat) + fracVal

/-! ## Digits -/

private theorem digitChar_not_whitespace : ∀ d : Fin 10, isWhitespace
    (digitChar d) = false := by decide

theorem digitChar_ne : ∀ d : Fin 10, digitChar d ≠ '.' ∧ digitChar d ≠ '-' ∧ digitChar d ≠ '+' := by
  decide

theorem takeBytes_digits (n : ℕ) (digits : List (Fin 10)) :
    takeBytes n (digits.map digitChar) = some ((digits.take n).map digitChar) := by
  induction digits generalizing n with
  | nil => cases n <;> rfl
  | cons d rest ih =>
    cases n with
    | zero => rfl
    | succ n => simp [takeBytes, digitChar_utf8Size, ih]

theorem byteLength_digits (digits : List (Fin 10)) :
    byteLength (digits.map digitChar) = digits.length := by
  induction digits with
  | nil => rfl
  | cons d rest ih =>
    rw [List.map_cons, byteLength, List.foldr_cons, ← byteLength, ih, digitChar_utf8Size,
      List.length_cons, Nat.add_comm]

/-- The accumulator of the integer parser holds the value of the digits read. -/
theorem foldl_digits (digits : List (Fin 10)) :
    (digits.map digitChar).foldl (fun value c => value * 10 + (c.toNat - 48 : ℤ)) 0 =
      digitsValue digits := by
  induction digits using List.reverseRecOn with
  | nil => rfl
  | append_singleton front d ih =>
    rw [List.map_append, List.foldl_append, ih, digitsValue_concat]
    simp [digitChar_toNat]

theorem digits_parse {digits : List (Fin 10)} (nonempty : digits ≠ []) :
    ¬(digits.map digitChar = [] ∨ ¬(digits.map digitChar).all Char.isDigit = true) := by
  simp [nonempty, digitChar_isDigit]

private theorem parseInt64_unsigned {digits : List (Fin 10)} (nonempty : digits ≠ [])
    (fits : Int64.minValue.toInt ≤ (digitsValue digits : ℤ) ∧
      (digitsValue digits : ℤ) ≤ Int64.maxValue.toInt) :
    parseInt64 (digits.map digitChar) = some (Int64.ofInt (digitsValue digits)) := by
  rw [parseInt64]
  · simp only [if_neg (digits_parse nonempty), foldl_digits, Bool.false_eq_true, if_false,
      if_pos fits]
  · intro rest minus
    obtain ⟨d, tail, rfl, sign, -⟩ := List.map_eq_cons_iff.mp minus
    exact (digitChar_ne d).2.1 sign
  · intro rest plus
    obtain ⟨d, tail, rfl, sign, -⟩ := List.map_eq_cons_iff.mp plus
    exact (digitChar_ne d).2.2 sign

/-- A sign and digits parse to the integer they denote if it fits. -/
theorem parseInt64_digits (negative : Bool) {digits : List (Fin 10)} (nonempty : digits ≠ [])
    (fits : Int64.minValue.toInt ≤ (if negative then -1 else 1) * (digitsValue digits : ℤ) ∧
      (if negative then -1 else 1) * (digitsValue digits : ℤ) ≤ Int64.maxValue.toInt) :
    parseInt64 ((if negative then ['-'] else []) ++ digits.map digitChar) =
      some (Int64.ofInt ((if negative then -1 else 1) * digitsValue digits)) := by
  cases negative with
  | true =>
    simp only [if_true, neg_one_mul] at fits
    simp only [parseInt64, if_true, List.cons_append, List.nil_append,
      if_neg (digits_parse nonempty), foldl_digits, if_pos fits, neg_one_mul]
  | false =>
    simp only [Bool.false_eq_true, if_false, one_mul] at fits
    simpa using parseInt64_unsigned nonempty fits

/-! ## Numerals -/

variable (numeral : Numeral)

theorem trim_numeral : trim numeral.chars = numeral.chars := by
  have visible : ∀ c ∈ numeral.chars, isWhitespace c = false := by
    intro c mem
    simp only [Numeral.chars, List.mem_append] at mem
    rcases mem with sign | whole | fraction
    · cases negative : numeral.negative <;> simp_all [isWhitespace]
    · obtain ⟨d, -, rfl⟩ := List.mem_map.mp whole
      exact digitChar_not_whitespace d
    · cases given : numeral.fraction with
      | none => simp [given] at fraction
      | some digits =>
        rw [given] at fraction
        rcases List.mem_cons.mp fraction with rfl | digit
        · decide
        · obtain ⟨d, -, rfl⟩ := List.mem_map.mp digit
          exact digitChar_not_whitespace d
  have unchanged {s : List Char} (visible : ∀ c ∈ s, isWhitespace c = false) :
      s.dropWhile isWhitespace = s := by
    cases s with
    | nil => rfl
    | cons c rest => simp [visible c List.mem_cons_self]
  rw [trim, unchanged visible, unchanged (by simpa using visible), List.reverse_reverse]

private theorem beforePoint : ∀ c ∈ (if numeral.negative then ['-'] else []) ++
    numeral.whole.map digitChar, (decide (c ≠ '.')) = true := by
  intro c mem
  rcases List.mem_append.mp mem with sign | whole
  · cases negative : numeral.negative <;> simp_all
  · obtain ⟨d, -, rfl⟩ := List.mem_map.mp whole
    exact decide_eq_true (digitChar_ne d).1

theorem takeWhile_numeral : numeral.chars.takeWhile (· ≠ '.') =
    (if numeral.negative then ['-'] else []) ++ numeral.whole.map digitChar := by
  rw [Numeral.chars, ← List.append_assoc, List.takeWhile_append_of_pos (beforePoint numeral)]
  cases numeral.fraction <;> simp

theorem dropWhile_numeral : (numeral.chars.dropWhile (· ≠ '.')).drop 1 =
    numeral.fractionDigits.map digitChar := by
  rw [Numeral.chars, ← List.append_assoc, List.dropWhile_append_of_pos (beforePoint numeral),
    Numeral.fractionDigits]
  cases numeral.fraction <;> simp

private theorem replicate_zero_digit (n : ℕ) :
    List.replicate n '0' = (List.replicate n (0 : Fin 10)).map digitChar := by
  rw [List.map_replicate]
  rfl

theorem kept_digits (n : ℕ) : (numeral.kept n).map digitChar =
    (numeral.fractionDigits.take n).map digitChar ++
      List.replicate (n - numeral.fractionDigits.length) '0' := by
  rw [replicate_zero_digit, ← List.map_append, Numeral.kept, List.take_append, List.take_replicate]
  congr 3
  omega

/-- The digits kept after the point are an integer of 64 bits. -/
theorem parseInt64_kept {n : ℕ} (powerFits : n ≤ 18) (nonempty : numeral.kept n ≠ []) :
    parseInt64 ((numeral.kept n).map digitChar) =
      some (Int64.ofInt (digitsValue (numeral.kept n))) := by
  have bound := numeral.kept_lt n
  have small : 10 ^ n ≤ 10 ^ 18 := Nat.pow_le_pow_right (by decide) powerFits
  have least := Int64.toInt_minValue
  have most := Int64.toInt_maxValue
  exact parseInt64_unsigned nonempty ⟨by omega, by omega⟩

theorem signed_whole_ne_nil :
    (if numeral.negative then ['-'] else []) ++ numeral.whole.map digitChar ≠ [] := by
  simp [numeral.whole_ne_nil]

private theorem padded_numeral (n : ℕ) :
    takeBytes n (numeral.fractionDigits.map digitChar ++
      List.replicate (n - (numeral.fractionDigits.map digitChar).length) '0') =
        some ((numeral.kept n).map digitChar) := by
  rw [List.length_map, replicate_zero_digit, ← List.map_append, takeBytes_digits, Numeral.kept]
  simp [List.take_append]

private theorem parseInteger_numeral (invalid : ε)
    (fits : Int64.minValue.toInt ≤ numeral.sign * (digitsValue numeral.whole : ℤ) ∧
      numeral.sign * (digitsValue numeral.whole : ℤ) ≤ Int64.maxValue.toInt) :
    parseInteger invalid ((if numeral.negative then ['-'] else []) ++
      numeral.whole.map digitChar) =
        .ok (Int64.ofInt (numeral.sign * digitsValue numeral.whole)) := by
  rw [parseInteger, if_neg (signed_whole_ne_nil numeral),
    parseInt64_digits _ numeral.whole_ne_nil fits]
  rfl

theorem parseFraction_numeral (invalid : ε) {n : ℕ} (powerFits : n ≤ 18) :
    parseFraction invalid n (numeral.fractionDigits.map digitChar) =
      .ok (Int64.ofInt (digitsValue (numeral.kept n))) := by
  by_cases integral : n = 0
  · subst integral
    rfl
  · have value := parseInt64_kept numeral powerFits (numeral.kept_ne_nil integral)
    rw [parseFraction, if_neg integral, padded_numeral]
    simp only [value]

/-! ## Sums of the two parts -/

/-- The signed whole part of a numeral that fits when scaled fits itself. -/
theorem whole_fits {n : ℕ} (lower : Int64.minValue.toInt ≤ numeral.scaled n)
    (upper : numeral.scaled n ≤ Int64.maxValue.toInt) :
    Int64.minValue.toInt ≤ numeral.sign * (digitsValue numeral.whole : ℤ) ∧
      numeral.sign * (digitsValue numeral.whole : ℤ) ≤ Int64.maxValue.toInt := by
  have wholeLe : digitsValue numeral.whole ≤ digitsValue numeral.whole * 10 ^ n :=
    Nat.le_mul_of_pos_right _ (by positivity)
  have least := Int64.toInt_minValue
  have most := Int64.toInt_maxValue
  rw [numeral.scaled_eq, least] at lower
  rw [numeral.scaled_eq, most] at upper
  rcases numeral.sign_cases with sign | sign <;> rw [sign] at lower upper ⊢ <;> constructor <;>
    omega

/-- Nothing wraps when the digits kept are added to the scaled whole part. -/
theorem toInt_parts {n : ℕ} (powerFits : n ≤ 18)
    (lower : Int64.minValue.toInt ≤ numeral.scaled n)
    (upper : numeral.scaled n ≤ Int64.maxValue.toInt) :
    (Int64.ofInt (numeral.sign * digitsValue numeral.whole) * Int64.ofInt (10 ^ n) +
      Int64.ofInt (digitsValue (numeral.kept n))).toInt =
        numeral.sign * digitsValue numeral.whole * 10 ^ n + digitsValue (numeral.kept n) := by
  have bound := numeral.kept_lt n
  have small : 10 ^ n ≤ 10 ^ 18 := Nat.pow_le_pow_right (by decide) powerFits
  have least := Int64.toInt_minValue
  have most := Int64.toInt_maxValue
  rw [numeral.scaled_eq, least] at lower
  rw [numeral.scaled_eq, most] at upper
  have product : numeral.sign * digitsValue numeral.whole * 10 ^ n =
      numeral.sign * ((digitsValue numeral.whole * 10 ^ n : ℕ) : ℤ) := by
    push_cast
    ring
  rw [← Int64.ofInt_mul, ← Int64.ofInt_add, product, Int64.toInt_ofInt_of_le]
  · rcases numeral.sign_cases with sign | sign <;> rw [sign] at lower upper ⊢ <;> omega
  · rcases numeral.sign_cases with sign | sign <;> rw [sign] at lower upper ⊢ <;> omega

/-- The sum of the two parts exceeds a negative value by twice the digits kept. -/
theorem parts_eq (n : ℕ) :
    numeral.sign * digitsValue numeral.whole * 10 ^ n + digitsValue (numeral.kept n) =
      numeral.scaled n +
        if numeral.negative then 2 * (digitsValue (numeral.kept n) : ℤ) else 0 := by
  rw [numeral.scaled_eq, Numeral.sign]
  cases numeral.negative with
  | true =>
    push_cast
    simp only [if_true]
    ring
  | false =>
    push_cast
    simp

/-- The sum of the two parts is the truncated value unless digits after a minus sign are lost. -/
theorem parts_exact_iff {n : ℕ} {v : ℤ}
    (parts : v = numeral.scaled n +
      if numeral.negative then 2 * (digitsValue (numeral.kept n) : ℤ) else 0) :
    v = numeral.scaled n ↔ numeral.negative = false ∨ ∀ d ∈ numeral.kept n, d = 0 := by
  rw [parts, ← digitsValue_eq_zero]
  cases numeral.negative with
  | false => simp
  | true =>
    simp only [if_true, Bool.true_eq_false, false_or]
    omega

/-- The digits after the point are added to the signed whole part, whatever its sign. -/
theorem parseScaledWith_text (invalid : String → UInt32 → ε) {scale : UInt32}
    (powerFits : scale.toNat ≤ 18)
    (lower : Int64.minValue.toInt ≤ numeral.scaled scale.toNat)
    (upper : numeral.scaled scale.toNat ≤ Int64.maxValue.toInt) :
    ∃ v : Int64, parseScaledWith invalid numeral.text scale = .ok v ∧
      v.toInt = numeral.sign * digitsValue numeral.whole * 10 ^ scale.toNat +
        digitsValue (numeral.kept scale.toNat) := by
  refine ⟨Int64.ofInt (numeral.sign * digitsValue numeral.whole) *
    Int64.ofInt (10 ^ scale.toNat) + Int64.ofInt (digitsValue (numeral.kept scale.toNat)), ?_,
    toInt_parts numeral powerFits lower upper⟩
  simp only [parseScaledWith, Numeral.text, String.toList_ofList, trim_numeral,
    takeWhile_numeral, dropWhile_numeral, parseInteger_numeral numeral _
      (whole_fits numeral lower upper), parseFraction_numeral numeral _ powerFits]
  rfl

end TradingConnectivity.Normalize
