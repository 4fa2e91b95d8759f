import Mathlib.Data.List.TakeWhile
import TradingConnectivity.Gateway.Cloid

/-! # Which strings are client order ids

The documented format has fields of four and of sixteen hexadecimal digits. The parser splits at
the first two dashes, ignores the field between them and reads the rest as an integer, so it also
takes shorter and longer fields, a plus sign and anything for an instance. `parseCounter_iff` states
the language it accepts, `parseCounter_documented_iff` where that is the documented one.
-/

namespace TradingConnectivity.Gateway

/-- Every character is a hexadecimal digit, of either case. -/
def AllHex (digits : List Char) : Prop := ∀ c ∈ digits, (hexDigit? c).isSome

instance (digits : List Char) : Decidable (AllHex digits) := List.decidableBAll _ digits

/-- The value of hexadecimal digits behind those already read. -/
def hexValueFrom (acc : ℕ) (digits : List Char) : ℕ :=
  digits.foldl (fun value c => value * 16 + (hexDigit? c).getD 0) acc

/-- The value of hexadecimal digits. -/
def hexValue (digits : List Char) : ℕ := hexValueFrom 0 digits

private theorem le_hexValueFrom (acc : ℕ) (digits : List Char) : acc ≤ hexValueFrom acc digits := by
  induction digits generalizing acc with
  | nil => exact le_rfl
  | cons c rest ih =>
    have later := ih (acc * 16 + (hexDigit? c).getD 0)
    rw [hexValueFrom, List.foldl_cons]
    rw [hexValueFrom] at later
    omega

/-- Digits are accumulated when all are hexadecimal and their value fits. -/
theorem accumulateHex?_eq_some_iff {bits acc value : ℕ} {digits : List Char}
    (fits : acc < 2 ^ bits) :
    accumulateHex? bits acc digits = some value ↔
      AllHex digits ∧ hexValueFrom acc digits = value ∧ value < 2 ^ bits := by
  induction digits generalizing acc with
  | nil =>
    simp only [accumulateHex?, Option.some.injEq, AllHex, hexValueFrom, List.foldl_nil,
      List.not_mem_nil, false_implies, implies_true, true_and]
    constructor
    · rintro rfl
      exact ⟨rfl, fits⟩
    · exact And.left
  | cons c rest ih =>
    rw [accumulateHex?, AllHex, List.forall_mem_cons, hexValueFrom, List.foldl_cons]
    cases found : hexDigit? c with
    | none => simp only [Option.bind_eq_bind, Option.bind_none, reduceCtorEq, Option.isSome_none,
        Bool.false_eq_true, false_and]
    | some digit =>
      simp only [Option.bind_eq_bind, Option.bind_some, Option.isSome_some, true_and,
        Option.getD_some]
      by_cases room : acc * 16 + digit < 2 ^ bits
      · rw [if_pos room]
        exact ih room
      · rw [if_neg room]
        have grows := le_hexValueFrom (acc * 16 + digit) rest
        constructor
        · rintro ⟨⟩
        · rintro ⟨-, rfl, small⟩
          rw [hexValueFrom] at grows
          omega

/-- What `from_str_radix` reads: an optional plus sign and at least one digit. -/
def Signed (text digits : List Char) : Prop := text = digits ∨ text = '+' :: digits

private theorem fromStrRadix16?_eq_some_iff {bits value : ℕ} {text : List Char} :
    fromStrRadix16? bits text = some value ↔
      ∃ digits, Signed text digits ∧ digits ≠ [] ∧ AllHex digits ∧ hexValue digits = value ∧
        value < 2 ^ bits := by
  have zero : 0 < 2 ^ bits := Nat.two_pow_pos bits
  have plus : hexDigit? '+' = none := rfl
  have noPlus : ∀ rest, ¬AllHex ('+' :: rest) := fun rest hex => by
    have first := hex '+' List.mem_cons_self
    rw [plus] at first
    cases first
  unfold fromStrRadix16?
  split
  · constructor
    · rintro ⟨⟩
    · rintro ⟨digits, rfl | signed, nonempty, -⟩
      · exact absurd rfl nonempty
      · cases signed
  · constructor
    · rintro ⟨⟩
    · rintro ⟨digits, rfl | signed, nonempty, hex, -⟩
      · exact absurd hex (noPlus [])
      · exact absurd (List.cons.inj signed).2.symm nonempty
  · rename_i digits nonempty
    rw [accumulateHex?_eq_some_iff zero]
    constructor
    · rintro ⟨hex, same, small⟩
      refine ⟨digits, .inr rfl, ?_, hex, same, small⟩
      rintro rfl
      exact nonempty rfl
    · rintro ⟨other, rfl | signed, -, hex, same, small⟩
      · exact absurd hex (noPlus digits)
      · obtain rfl := (List.cons.inj signed).2
        exact ⟨hex, same, small⟩
  · rename_i nonempty _ unsigned
    rw [accumulateHex?_eq_some_iff zero]
    constructor
    · rintro ⟨hex, same, small⟩
      exact ⟨text, .inl rfl, nonempty, hex, same, small⟩
    · rintro ⟨other, rfl | signed, -, hex, same, small⟩
      · exact ⟨hex, same, small⟩
      · exact absurd signed (unsigned other)

private theorem splitn_of_notMem {separator : Char} {n : ℕ} {text : List Char}
    (absent : separator ∉ text) : splitn separator (n + 2) text = [text] := by
  have dropped : text.dropWhile (· ≠ separator) = [] := by
    rw [List.dropWhile_eq_nil_iff]
    intro c member
    exact decide_eq_true fun same => absent (same ▸ member)
  simp only [splitn, dropped]

/-- Three pieces are the two fields without a dash before the first two dashes, and the rest. -/
theorem splitn_three_iff {separator : Char} {text first second rest : List Char} :
    splitn separator 3 text = [first, second, rest] ↔
      text = first ++ separator :: (second ++ separator :: rest) ∧
        separator ∉ first ∧ separator ∉ second := by
  have clean : ∀ field : List Char, separator ∉ field → ∀ c ∈ field, c ≠ separator := by
    rintro field absent c member rfl
    exact absent member
  constructor
  · intro pieces
    by_cases present : separator ∈ text
    · obtain ⟨tag, tail, rfl, before⟩ := List.eq_append_cons_of_mem present
      rw [splitn_append (clean tag before), List.cons.injEq] at pieces
      obtain ⟨rfl, pieces⟩ := pieces
      by_cases again : separator ∈ tail
      · obtain ⟨inst, tail, rfl, between⟩ := List.eq_append_cons_of_mem again
        rw [splitn_append (clean inst between), List.cons.injEq] at pieces
        obtain ⟨rfl, last⟩ := pieces
        obtain rfl := List.singleton_injective last
        exact ⟨rfl, before, between⟩
      · rw [splitn_of_notMem again] at pieces
        cases pieces
    · rw [splitn_of_notMem present] at pieces
      cases pieces
  · rintro ⟨rfl, before, between⟩
    rw [splitn_append (clean first before), splitn_append (clean second between)]
    rfl

/-- The documented format: the tag, four and sixteen hexadecimal digits, the latter with the
counter for their value. -/
def Documented (text : String) (counter : UInt64) : Prop :=
  ∃ inst digits, text.toList = ['c', 'c'] ++ '-' :: (inst ++ '-' :: digits) ∧
    inst.length = 4 ∧ AllHex inst ∧ digits.length = 16 ∧ AllHex digits ∧
    hexValue digits = counter.toNat

/-- The accepted format: the tag, any text without a dash, an optional plus sign and at least one
hexadecimal digit, with a value that fits. -/
def Lenient (text : String) (counter : UInt64) : Prop :=
  ∃ inst field digits, text.toList = ['c', 'c'] ++ '-' :: (inst ++ '-' :: field) ∧
    '-' ∉ inst ∧ Signed field digits ∧ digits ≠ [] ∧ AllHex digits ∧
    hexValue digits = counter.toNat

namespace ClientOrderId

/-- The parser accepts exactly the lenient format. -/
theorem parseCounter_iff {cloid : ClientOrderId} {counter : UInt64} :
    cloid.parseCounter = some counter ↔ Lenient cloid.asStr counter := by
  have value : ∀ field : List Char,
      (fromStrRadix16? 64 field).map UInt64.ofNat = some counter ↔
        fromStrRadix16? 64 field = some counter.toNat := by
    intro field
    rw [Option.map_eq_some_iff]
    constructor
    · rintro ⟨n, parsed, rfl⟩
      obtain ⟨-, -, -, -, -, small⟩ := fromStrRadix16?_eq_some_iff.mp parsed
      rwa [UInt64.toNat_ofNat_of_lt' small]
    · intro parsed
      exact ⟨counter.toNat, parsed, UInt64.ofNat_toNat⟩
  constructor
  · intro parsed
    unfold parseCounter at parsed
    split at parsed
    · rename_i tag inst field pieces
      obtain ⟨shape, -, between⟩ := splitn_three_iff.mp pieces
      split_ifs at parsed with ours
      rw [value] at parsed
      obtain ⟨digits, signed, nonempty, hex, same, -⟩ := fromStrRadix16?_eq_some_iff.mp parsed
      rw [ours] at shape
      exact ⟨inst, field, digits, shape, between, signed, nonempty, hex, same⟩
    · cases parsed
  · rintro ⟨inst, field, digits, shape, between, signed, nonempty, hex, same⟩
    have pieces : splitn '-' 3 cloid.asStr.toList = [['c', 'c'], inst, field] :=
      splitn_three_iff.mpr ⟨shape, by decide, between⟩
    have parsed : fromStrRadix16? 64 field = some counter.toNat :=
      fromStrRadix16?_eq_some_iff.mpr ⟨digits, signed, nonempty, hex, same, counter.toNat_lt⟩
    simp only [parseCounter, pieces, if_true]
    exact (value field).mpr parsed

theorem parseCounter_isSome_iff {cloid : ClientOrderId} :
    cloid.parseCounter.isSome ↔ ∃ counter, Lenient cloid.asStr counter := by
  rw [Option.isSome_iff_exists]
  exact exists_congr fun counter => parseCounter_iff

end ClientOrderId

/-- A hexadecimal digit is no dash. -/
private theorem AllHex.dash_notMem {digits : List Char} (hex : AllHex digits) : '-' ∉ digits := by
  intro member
  have dash : hexDigit? '-' = none := rfl
  have digit := hex '-' member
  rw [dash] at digit
  cases digit

theorem Documented.lenient {text : String} {counter : UInt64}
    (documented : Documented text counter) :
    Lenient text counter := by
  obtain ⟨inst, digits, shape, -, instHex, length, hex, same⟩ := documented
  refine ⟨inst, digits, digits, shape, instHex.dash_notMem, .inl rfl, ?_, hex, same⟩
  rintro rfl
  cases length

/-- The parser recognises exactly the documented format for the strings that have it and for those
without even the lenient format. -/
theorem parseCounter_documented_iff {text : String} :
    (∀ counter, ClientOrderId.parseCounter ⟨text⟩ = some counter ↔ Documented text counter) ↔
      ((∃ counter, Documented text counter) ∨ ¬∃ counter, Lenient text counter) := by
  constructor
  · intro exact
    by_cases lenient : ∃ counter, Lenient text counter
    · obtain ⟨counter, lenient⟩ := lenient
      exact .inl ⟨counter, (exact counter).mp (ClientOrderId.parseCounter_iff.mpr lenient)⟩
    · exact .inr lenient
  · rintro (⟨counter, documented⟩ | foreign) other
    · have parsed : ClientOrderId.parseCounter ⟨text⟩ = some counter :=
        ClientOrderId.parseCounter_iff.mpr documented.lenient
      constructor
      · intro same
        obtain rfl := Option.some.inj (parsed.symm.trans same)
        exact documented
      · intro same
        exact ClientOrderId.parseCounter_iff.mpr same.lenient
    · constructor
      · intro parsed
        exact absurd ⟨other, ClientOrderId.parseCounter_iff.mp parsed⟩ foreign
      · intro documented
        exact absurd ⟨other, documented.lenient⟩ foreign

end TradingConnectivity.Gateway
