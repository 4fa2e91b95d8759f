import TradingConnectivity.Normalize.Spot
import TradingConnectivity.Normalize.Futures

/-! # Which decimals are accepted

A string is split at its first point, and the two parts go through an integer parser that accepts
signs. What the parser does not see is not checked: digits behind the scale, and the whole fraction
at scale zero. The product with the power of ten wraps.
-/

namespace TradingConnectivity.Normalize

open Decimal
open Reconcile (trim parseInt64 takeBytes)

/-! ## Integer texts -/

/-- What the integer parser does behind the sign. -/
def scanDigits (negative : Bool) (digits : List Char) : Option Int64 :=
  if digits = [] ∨ ¬digits.all Char.isDigit then none
  else
    let magnitude : ℤ := digits.foldl (fun value c => value * 10 + (c.toNat - 48 : ℤ)) 0
    let value := if negative then -magnitude else magnitude
    if Int64.minValue.toInt ≤ value ∧ value ≤ Int64.maxValue.toInt then some (Int64.ofInt value)
    else none

/-- The value behind a sign is in range. -/
def InRange (negative : Bool) (digits : List (Fin 10)) : Prop :=
  if negative then Int64.minValue.toInt ≤ -(digitsValue digits : ℤ)
  else (digitsValue digits : ℤ) ≤ Int64.maxValue.toInt

/-- An optional sign and digits whose value fits into 64 bits. -/
def IsInt64Text (s : List Char) : Prop :=
  ∃ (sign : List Char) (digits : List (Fin 10)), digits ≠ [] ∧ s = sign ++ digits.map digitChar ∧
    ((sign = [] ∨ sign = ['+']) ∧ InRange false digits ∨ sign = ['-'] ∧ InRange true digits)

private theorem scanDigits_isSome_iff (negative : Bool) (text : List Char) :
    (scanDigits negative text).isSome ↔
      ∃ digits : List (Fin 10), digits ≠ [] ∧ text = digits.map digitChar ∧
        InRange negative digits := by
  have least := Int64.toInt_minValue
  have most := Int64.toInt_maxValue
  have scanned {digits : List (Fin 10)} (nonempty : digits ≠ []) :
      (scanDigits negative (digits.map digitChar)).isSome ↔ InRange negative digits := by
    simp only [scanDigits, if_neg (digits_parse nonempty), foldl_digits, InRange]
    cases negative <;> simp only [Bool.false_eq_true, if_true, if_false] <;> split <;> simp <;>
      omega
  constructor
  · intro accepted
    by_cases readable : text = [] ∨ ¬text.all Char.isDigit
    · rw [scanDigits, if_pos readable] at accepted
      cases accepted
    · obtain ⟨present, numeric⟩ := not_or.mp readable
      obtain ⟨digits, rfl⟩ := exists_digits (not_not.mp numeric)
      have nonempty : digits ≠ [] := fun empty => present (List.map_eq_nil_iff.mpr empty)
      exact ⟨digits, nonempty, rfl, (scanned nonempty).mp accepted⟩
  · rintro ⟨digits, nonempty, rfl, fits⟩
    exact (scanned nonempty).mpr fits

private theorem parseInt64_unsigned_eq {s : List Char} (minus : ∀ rest, s ≠ '-' :: rest)
    (plus : ∀ rest, s ≠ '+' :: rest) : parseInt64 s = scanDigits false s := by
  rw [parseInt64]
  · rfl
  · exact minus
  · exact plus

/-- The integer parser accepts exactly these texts. -/
theorem parseInt64_isSome_iff (s : List Char) : (parseInt64 s).isSome ↔ IsInt64Text s := by
  constructor
  · intro accepted
    by_cases minus : ∃ rest, s = '-' :: rest
    · obtain ⟨rest, rfl⟩ := minus
      obtain ⟨digits, nonempty, rfl, fits⟩ := (scanDigits_isSome_iff true rest).mp accepted
      exact ⟨['-'], digits, nonempty, rfl, .inr ⟨rfl, fits⟩⟩
    by_cases plus : ∃ rest, s = '+' :: rest
    · obtain ⟨rest, rfl⟩ := plus
      obtain ⟨digits, nonempty, rfl, fits⟩ := (scanDigits_isSome_iff false rest).mp accepted
      exact ⟨['+'], digits, nonempty, rfl, .inl ⟨.inr rfl, fits⟩⟩
    rw [parseInt64_unsigned_eq (not_exists.mp minus) (not_exists.mp plus)] at accepted
    obtain ⟨digits, nonempty, rfl, fits⟩ := (scanDigits_isSome_iff false s).mp accepted
    exact ⟨[], digits, nonempty, rfl, .inl ⟨.inl rfl, fits⟩⟩
  · rintro ⟨sign, digits, nonempty, rfl, ⟨rfl | rfl, fits⟩ | ⟨rfl, fits⟩⟩
    · have unsigned : ∀ c, c = '-' ∨ c = '+' → ∀ rest, [] ++ digits.map digitChar ≠ c :: rest := by
        intro c sign rest signed
        obtain ⟨d, tail, -, rfl, -⟩ := List.map_eq_cons_iff.mp signed
        rcases sign with minus | plus
        · exact (digitChar_ne d).2.1 minus
        · exact (digitChar_ne d).2.2 plus
      rw [parseInt64_unsigned_eq (unsigned '-' (.inl rfl)) (unsigned '+' (.inr rfl))]
      exact (scanDigits_isSome_iff false _).mpr ⟨digits, nonempty, rfl, fits⟩
    · exact (scanDigits_isSome_iff false _).mpr ⟨digits, nonempty, rfl, fits⟩
    · exact (scanDigits_isSome_iff true _).mpr ⟨digits, nonempty, rfl, fits⟩

/-! ## What a call does -/

variable {ε : Type}

/-- The text before the first point. -/
def integerPart (s : String) : List Char := (trim s.toList).takeWhile (· ≠ '.')

/-- The text behind the first point. -/
def fractionPart (s : String) : List Char := ((trim s.toList).dropWhile (· ≠ '.')).drop 1

/-- Not empty and no integer. -/
def BadInteger (int : List Char) : Prop := int ≠ [] ∧ ¬IsInt64Text int

/-- Padded with zeros and cut to the bytes of the scale, no integer. -/
def BadFraction (n : ℕ) (frac : List Char) : Prop :=
  n ≠ 0 ∧ ∃ kept, takeBytes n (frac ++ List.replicate (n - frac.length) '0') = some kept ∧
    ¬IsInt64Text kept

/-- One of the two texts is no integer. -/
def Rejected (s : String) (n : ℕ) : Prop :=
  BadInteger (integerPart s) ∨ BadFraction n (fractionPart s)

private theorem parseInteger_cases (invalid : ε) (int : List Char) :
    BadInteger int ∧ parseInteger invalid int = .error (.returned invalid) ∨
      ¬BadInteger int ∧ ∃ v, parseInteger invalid int = .ok v := by
  rw [parseInteger, BadInteger, ← parseInt64_isSome_iff]
  by_cases absent : int = []
  · simp [absent]
  · rw [if_neg absent]
    cases parseInt64 int <;> simp [absent]

private theorem parseFraction_cases (invalid : ε) (n : ℕ) (frac : List Char) :
    BadFraction n frac ∧ parseFraction invalid n frac = .error (.returned invalid) ∨
      ¬BadFraction n frac ∧ (parseFraction invalid n frac = .error .panicked ∨
        ∃ v, parseFraction invalid n frac = .ok v) := by
  rw [parseFraction, BadFraction]
  by_cases integral : n = 0
  · simp [integral]
  · rw [if_neg integral]
    cases takeBytes n (frac ++ List.replicate (n - frac.length) '0') with
    | none => simp
    | some kept =>
      simp only [Option.some.injEq, exists_eq_left', ← parseInt64_isSome_iff]
      cases parseInt64 kept <;> simp [integral]

/-- A call returns an error exactly for the rejected strings. -/
theorem returned_iff (invalid : String → UInt32 → ε) (s : String) (scale : UInt32) :
    (∃ e, parseScaledWith invalid s scale = .error (.returned e)) ↔ Rejected s scale.toNat := by
  have steps : parseScaledWith invalid s scale = (do
      let intVal ← parseInteger (invalid (String.ofList (trim s.toList)) scale) (integerPart s)
      let fracVal ←
        parseFraction (invalid (String.ofList (trim s.toList)) scale) scale.toNat (fractionPart s)
      return intVal * Int64.ofInt (10 ^ scale.toNat) + fracVal) := rfl
  rw [steps, Rejected]
  rcases parseInteger_cases (invalid (String.ofList (trim s.toList)) scale) (integerPart s) with
    ⟨bad, failed⟩ | ⟨good, int, parsed⟩
  · rw [failed]
    exact ⟨fun _ => .inl bad, fun _ => ⟨_, rfl⟩⟩
  · rw [parsed, or_iff_right good]
    rcases parseFraction_cases (invalid (String.ofList (trim s.toList)) scale) scale.toNat
      (fractionPart s) with ⟨bad, failed⟩ | ⟨good, failed | ⟨frac, parsed⟩⟩
    · rw [failed]
      exact ⟨fun _ => bad, fun _ => ⟨_, rfl⟩⟩
    · rw [failed]
      exact ⟨fun ⟨e, returned⟩ => (nomatch returned), fun bad => absurd bad good⟩
    · rw [parsed]
      exact ⟨fun ⟨e, returned⟩ => (nomatch returned), fun bad => absurd bad good⟩

/-! ## Decimals without sign -/

/-- The trimmed string is a decimal without sign: digits, and possibly a point and digits. -/
def UnsignedDecimal (s : String) (numeral : Numeral) : Prop :=
  trim s.toList = numeral.chars ∧ numeral.negative = false ∧ numeral.fraction ≠ some []

/-- The value of a decimal without sign in units of ten to the minus `n`. -/
def DecimalValue (s : String) (n : ℕ) (v : Int64) : Prop :=
  ∃ numeral, UnsignedDecimal s numeral ∧ v.toInt = numeral.scaled n

/-- An absent field counts as zero. -/
def OptionalValue (s : String) (n : ℕ) (v : Int64) : Prop :=
  trim s.toList = [] ∧ v = 0 ∨ DecimalValue s n v

/-- A parser returns the values of a string and nothing else, and does not panic. -/
def ParsesExactly (parse : String → UInt32 → Except (Failure ε) Int64)
    (value : String → ℕ → Int64 → Prop) (s : String) (scale : UInt32) : Prop :=
  (∀ v, parse s scale = .ok v ↔ value s scale.toNat v) ∧ parse s scale ≠ .error .panicked

/-- Only the trimmed string counts. -/
private theorem parseScaledWith_trim (invalid : String → UInt32 → ε) {s : String}
    {numeral : Numeral}
    (written : trim s.toList = numeral.chars) (scale : UInt32) :
    parseScaledWith invalid s scale = parseScaledWith invalid numeral.text scale := by
  simp only [parseScaledWith, Numeral.text, String.toList_ofList, written, trim_numeral]

/-- A decimal without sign is parsed to its value if that fits. -/
private theorem parseScaledWith_decimal (invalid : String → UInt32 → ε) {s : String}
    {scale : UInt32}
    {v : Int64} (powerFits : scale.toNat ≤ 18) (value : DecimalValue s scale.toNat v) :
    parseScaledWith invalid s scale = .ok v := by
  obtain ⟨numeral, ⟨written, unsigned, -⟩, exact⟩ := value
  have positive := numeral.sign_unsigned unsigned
  obtain ⟨w, parsed, worth⟩ := parseScaledWith_text numeral invalid powerFits
    (exact ▸ v.minValue_le_toInt) (exact ▸ v.toInt_le)
  rw [parseScaledWith_trim invalid written, parsed]
  have same : w.toInt = v.toInt := by
    rw [worth, exact, numeral.scaled_eq, positive]
    push_cast
    ring
  rw [Int64.toInt_inj.mp same]

/-- An empty string is parsed to zero. -/
theorem parseScaledWith_empty (invalid : String → UInt32 → ε) {s : String} {scale : UInt32}
    (powerFits : scale.toNat ≤ 18) (empty : trim s.toList = []) :
    parseScaledWith invalid s scale = .ok 0 := by
  have fraction := parseFraction_numeral ⟨false, [0], by decide, none⟩ (invalid "" scale) powerFits
  have zeros : digitsValue ((⟨false, [0], by decide, none⟩ : Numeral).kept scale.toNat) = 0 := by
    simp [Numeral.kept, Numeral.fractionDigits]
  rw [zeros] at fraction
  simp only [parseScaledWith, empty, List.takeWhile_nil, List.dropWhile_nil, List.drop_nil,
    parseInteger, if_true]
  change (do
    let fracVal ← parseFraction (invalid "" scale) scale.toNat []
    return 0 * Int64.ofInt (10 ^ scale.toNat) + fracVal) = .ok 0
  change parseFraction (invalid "" scale) scale.toNat [] = _ at fraction
  rw [fraction]
  simp [pure, Except.pure, bind, Except.bind]

/-- A parser of this kind is exact on a string exactly if the string has a value or is rejected. -/
theorem parsesExactly_iff (invalid : String → UInt32 → ε) {value : String → ℕ → Int64 → Prop}
    {s : String} {scale : UInt32}
    (parsed : ∀ v, value s scale.toNat v → parseScaledWith invalid s scale = .ok v) :
    ParsesExactly (parseScaledWith invalid) value s scale ↔
      (∃ v, value s scale.toNat v) ∨ Rejected s scale.toNat := by
  rw [← returned_iff invalid, ParsesExactly]
  constructor
  · rintro ⟨exact, safe⟩
    cases result : parseScaledWith invalid s scale with
    | ok v => exact .inl ⟨v, (exact v).mp result⟩
    | error failure =>
      cases failure with
      | returned e => exact .inr ⟨e, rfl⟩
      | panicked => exact absurd result safe
  · rintro (⟨v, value⟩ | ⟨e, returned⟩)
    · rw [parsed v value]
      refine ⟨fun w => ⟨?_, ?_⟩, nofun⟩
      · intro same
        cases same
        exact value
      · intro other
        rw [← parsed v value, parsed w other]
    · rw [returned]
      refine ⟨fun w => ⟨nofun, ?_⟩, nofun⟩
      intro value
      rw [← returned, parsed w value]

/-- A decimal has a value in 64 bits if its value does not exceed them. -/
private theorem exists_decimalValue_iff (s : String) (n : ℕ) :
    (∃ v, DecimalValue s n v) ↔
      ∃ numeral, UnsignedDecimal s numeral ∧ numeral.scaled n ≤ Int64.maxValue.toInt := by
  have least := Int64.toInt_minValue
  have most := Int64.toInt_maxValue
  constructor
  · rintro ⟨v, numeral, decimal, exact⟩
    exact ⟨numeral, decimal, exact ▸ v.toInt_le⟩
  · rintro ⟨numeral, decimal, fits⟩
    have nonneg := numeral.scaled_nonneg decimal.2.1 n
    exact ⟨Int64.ofInt (numeral.scaled n), numeral, decimal,
      Int64.toInt_ofInt_of_le (by omega) (by omega)⟩

/-- The condition under which the string is parsed exactly or rejected. -/
def AcceptedOrRejected (s : String) (n : ℕ) : Prop :=
  (∃ numeral, UnsignedDecimal s numeral ∧ numeral.scaled n ≤ Int64.maxValue.toInt) ∨ Rejected s n

/-- Both parsers are exact on the decimals without sign that fit and on the rejected strings; the
one of the futures is also exact on the empty string. -/
theorem parseScaled_correct_iff {scale : UInt32} (powerFits : scale.toNat ≤ 18) (s : String) :
    (ParsesExactly Spot.parseScaled DecimalValue s scale ↔ AcceptedOrRejected s scale.toNat) ∧
      (ParsesExactly Futures.parseScaled OptionalValue s scale ↔
        trim s.toList = [] ∨ AcceptedOrRejected s scale.toNat) := by
  constructor
  · rw [Spot.parseScaled, AcceptedOrRejected, ← exists_decimalValue_iff]
    exact parsesExactly_iff _ fun v => parseScaledWith_decimal _ powerFits
  · have present : (∃ v, OptionalValue s scale.toNat v) ↔
        trim s.toList = [] ∨ ∃ v, DecimalValue s scale.toNat v := by
      simp only [OptionalValue, exists_or, exists_and_left, exists_eq, and_true]
    rw [Futures.parseScaled, AcceptedOrRejected, ← or_assoc, ← exists_decimalValue_iff, ← present]
    refine parsesExactly_iff _ ?_
    rintro v (⟨empty, rfl⟩ | value)
    · exact parseScaledWith_empty _ powerFits empty
    · exact parseScaledWith_decimal _ powerFits value

theorem parseScaled_exact_price : ParsesExactly Spot.parseScaled DecimalValue " 1.25 " 1 ∧
    ParsesExactly Futures.parseScaled OptionalValue "" 8 ∧
    ParsesExactly Spot.parseScaled DecimalValue "n/a" 8 := by
  refine ⟨(parseScaled_correct_iff (by decide) _).1.mpr (.inl ⟨⟨false, [1], by decide, some [2, 5]⟩,
    ⟨by decide, rfl, by decide⟩, ?_⟩), (parseScaled_correct_iff (by decide) _).2.mpr (.inl rfl),
    (parseScaled_correct_iff (by decide) _).1.mpr (.inr (.inl ⟨by decide, ?_⟩))⟩
  · rw [Numeral.scaled_eq]
    decide
  · rw [← parseInt64_isSome_iff]
    decide

private theorem chars_unsigned {numeral : Numeral} (unsigned : numeral.negative = false) :
    ∀ c ∈ numeral.chars, c ≠ '-' := by
  intro c mem
  simp only [Numeral.chars, unsigned, Bool.false_eq_true, if_false, List.nil_append,
    List.mem_append, List.mem_map] at mem
  rcases mem with ⟨d, -, rfl⟩ | fraction
  · exact (digitChar_ne d).2.1
  · cases given : numeral.fraction with
    | none => simp [given] at fraction
    | some digits =>
      rw [given] at fraction
      rcases List.mem_cons.mp fraction with rfl | digit
      · decide
      · obtain ⟨d, -, rfl⟩ := List.mem_map.mp digit
        exact (digitChar_ne d).2.1

/-- A minus behind the point is subtracted from the hundredths instead of being rejected. -/
theorem fraction_signed : ¬ParsesExactly Spot.parseScaled DecimalValue "1.-5" 2 ∧
    ¬ParsesExactly Futures.parseScaled OptionalValue "1.-5" 2 := by
  have noDecimal (v : Int64) : ¬DecimalValue "1.-5" 2 v := by
    rintro ⟨numeral, ⟨written, unsigned, -⟩, -⟩
    have minus : '-' ∈ numeral.chars := by
      rw [← written]
      decide
    exact chars_unsigned unsigned '-' minus rfl
  constructor
  · intro exact
    have parsed : Spot.parseScaled "1.-5" 2 = .ok 95 := by decide
    exact noDecimal _ ((exact.1 _).mp parsed)
  · intro exact
    have parsed : Futures.parseScaled "1.-5" 2 = .ok 95 := by decide
    rcases (exact.1 _).mp parsed with ⟨empty, -⟩ | value
    · exact absurd empty (by decide)
    · exact noDecimal _ value

end TradingConnectivity.Normalize
