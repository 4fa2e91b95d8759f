import Mathlib.Data.String.Basic
import TradingConnectivity.Gateway.Cloid
import TradingConnectivity.ToMathlib.LexDigits

/-! # The order of client order ids

For instances of at most four hexadecimal digits all ids have one shape, so their order as strings
is the order of their fields (`generate_lt_iff`). The ids one generator issues are then strictly
increasing for as long as its counter does not wrap (`issue_increasing_iff`).
-/

namespace TradingConnectivity.Gateway

/-- The digits of a padded number, highest first. -/
def hexDigits (width n : ℕ) : List ℕ := (Nat.digits 16 n).reverse.leftpad width 0

private theorem formatHex_eq_map (width n : ℕ) :
    formatHex width n = (hexDigits width n).map Nat.digitChar := by
  have zero : Nat.digitChar 0 = '0' := rfl
  simp only [formatHex, hexDigits, List.leftpad, List.map_append, List.map_replicate,
    List.length_map, zero]

private theorem hexDigits_lt {width n d : ℕ} (member : d ∈ hexDigits width n) : d < 16 := by
  simp only [hexDigits, List.leftpad, List.mem_append, List.mem_replicate,
    List.mem_reverse] at member
  rcases member with ⟨-, rfl⟩ | digit
  · decide
  · exact Nat.digits_lt_base (by decide) digit

private theorem ofDigits_hexDigits (width n : ℕ) : Nat.ofDigits 16
    (hexDigits width n).reverse = n := by
  rw [hexDigits, List.leftpad, List.reverse_append, List.reverse_reverse, List.reverse_replicate,
    Nat.ofDigits_append_replicate_zero, Nat.ofDigits_digits]

/-- A number that fits is padded to exactly the width. -/
private theorem formatHex_length_of_lt {width n : ℕ} (fits : n < 16 ^ width) :
    (formatHex width n).length = width := by
  have digits := (Nat.digits_length_le_iff (by decide) n).mpr fits
  rw [formatHex_length]
  omega

private theorem digitChar_strictMonoOn : StrictMonoOn Nat.digitChar (Set.Iio 16) := by
  intro m left n right less
  have bound : n < 16 := right
  interval_cases n <;> interval_cases m <;> decide

/-- Numbers that fit are ordered as their padded numerals. -/
private theorem formatHex_lt_iff {width m n : ℕ} (left : m < 16 ^ width) (right : n < 16 ^ width) :
    formatHex width m < formatHex width n ↔ m < n := by
  have length : (hexDigits width m).length = (hexDigits width n).length := by
    have first := formatHex_length_of_lt left
    have second := formatHex_length_of_lt right
    rw [formatHex_eq_map, List.length_map] at first second
    rw [first, second]
  rw [formatHex_eq_map, formatHex_eq_map,
    List.map_lt_map_iff_ofDigits (by decide) digitChar_strictMonoOn length
      (fun _ => hexDigits_lt) fun _ => hexDigits_lt,
    ofDigits_hexDigits, ofDigits_hexDigits]

private theorem formatHex_inj {width m n : ℕ} (left : m < 16 ^ width) (right : n < 16 ^ width) :
    formatHex width m = formatHex width n ↔ m = n := by
  refine ⟨fun same => ?_, fun same => congrArg _ same⟩
  rcases lt_trichotomy m n with less | equal | more
  · exact absurd same ((formatHex_lt_iff left right).mpr less).ne
  · exact equal
  · exact absurd same ((formatHex_lt_iff right left).mpr more).ne'

namespace ClientOrderIdGenerator

/-- The ids of one generator, in the order in which it issues them. -/
def issue : ℕ → ClientOrderIdGenerator → List ClientOrderId
  | 0, _ => []
  | n + 1, generator => generator.generate.1 :: issue n generator.generate.2

/-- An id has 24 characters when its instance has at most four digits. -/
theorem generate_length {generator : ClientOrderIdGenerator}
    (small : generator.instanceId ≤ 65535) : generator.generate.1.asStr.length = 24 := by
  have inst : generator.instanceId.toNat < 16 ^ 4 :=
    Nat.lt_succ_of_le (UInt32.le_iff_toNat_le.mp small)
  have counter : generator.counter.toNat < 16 ^ 16 := generator.counter.toNat_lt
  rw [generate, String.length_ofList, format]
  simp only [List.length_append, formatHex_length_of_lt inst, formatHex_length_of_lt counter]
  rfl

/-- The order of two ids is the order of their instances and, for one instance, of their
counters. -/
theorem generate_lt_iff {first second : ClientOrderIdGenerator}
    (left : first.instanceId ≤ 65535) (right : second.instanceId ≤ 65535) :
    first.generate.1.asStr < second.generate.1.asStr ↔
      first.instanceId < second.instanceId ∨
        first.instanceId = second.instanceId ∧ first.counter < second.counter := by
  have instLeft : first.instanceId.toNat < 16 ^ 4 :=
    Nat.lt_succ_of_le (UInt32.le_iff_toNat_le.mp left)
  have instRight : second.instanceId.toNat < 16 ^ 4 :=
    Nat.lt_succ_of_le (UInt32.le_iff_toNat_le.mp right)
  have length : (formatHex 4 first.instanceId.toNat).length =
      (formatHex 4 second.instanceId.toNat).length := by
    rw [formatHex_length_of_lt instLeft, formatHex_length_of_lt instRight]
  rw [String.lt_iff_toList_lt, generate, generate, String.toList_ofList, String.toList_ofList,
    format, format, List.append_assoc, List.append_assoc, List.append_assoc, List.append_assoc,
    List.append_lt_append_iff rfl, List.append_lt_append_iff length,
    List.append_lt_append_iff rfl, formatHex_lt_iff instLeft instRight,
    formatHex_inj instLeft instRight,
    formatHex_lt_iff first.counter.toNat_lt second.counter.toNat_lt]
  simp only [lt_irrefl, true_and, false_or, UInt32.lt_iff_toNat_lt, UInt64.lt_iff_toNat_lt,
    UInt32.toNat_inj]

/-- Every id a generator issues has its instance and a counter from its own on, as long as the
counter does not wrap. -/
theorem mem_issue {n : ℕ} {generator : ClientOrderIdGenerator} {cloid : ClientOrderId}
    (room : generator.counter.toNat + n ≤ 2 ^ 64) (member : cloid ∈ issue n generator) :
    ∃ counter, generator.counter ≤ counter ∧
      cloid = (generate ⟨generator.instanceId, counter⟩).1 := by
  induction n generalizing generator with
  | zero => cases member
  | succ n ih =>
    rcases List.mem_cons.mp member with rfl | member
    · exact ⟨generator.counter, UInt64.le_refl _, rfl⟩
    · cases n with
      | zero => cases member
      | succ n =>
        have next := UInt64.toNat_succ (show generator.counter.toNat + 1 < 2 ^ 64 by omega)
        have follows : generator.generate.2.counter.toNat = generator.counter.toNat + 1 := next
        obtain ⟨counter, later, same⟩ := ih (by omega) member
        refine ⟨counter, ?_, same⟩
        rw [UInt64.le_iff_toNat_le] at later ⊢
        omega

/-- The counter either advances by one or wraps, after the largest counter. -/
private theorem counter_generate (generator : ClientOrderIdGenerator) :
    generator.generate.2.counter.toNat = generator.counter.toNat + 1 ∨
      generator.counter.toNat = 2 ^ 64 - 1 ∧ generator.generate.2.counter.toNat = 0 := by
  have bound := generator.counter.toNat_lt
  have step : generator.generate.2.counter.toNat = (generator.counter.toNat + 1) % 2 ^ 64 :=
    UInt64.toNat_add generator.counter 1
  omega

/-- The ids one generator issues are strictly increasing exactly for as long as its counter does
not wrap. -/
theorem issue_increasing_iff {generator : ClientOrderIdGenerator}
    (small : generator.instanceId ≤ 65535) (n : ℕ) :
    ((issue n generator).map ClientOrderId.asStr).Pairwise (· < ·) ↔
      generator.counter.toNat + n ≤ 2 ^ 64 := by
  have bound := generator.counter.toNat_lt
  induction n generalizing generator with
  | zero => exact ⟨fun _ => bound.le, fun _ => List.Pairwise.nil⟩
  | succ n ih =>
    have same : generator.generate.2.instanceId = generator.instanceId := rfl
    have small' : generator.generate.2.instanceId ≤ 65535 := by rwa [same]
    have tail : ((issue n generator.generate.2).map ClientOrderId.asStr).Pairwise (· < ·) ↔
        generator.generate.2.counter.toNat + n ≤ 2 ^ 64 :=
      ih small' generator.generate.2.counter.toNat_lt
    rw [issue, List.map_cons, List.pairwise_cons, List.forall_mem_map, tail]
    constructor
    · rintro ⟨first, room⟩
      rcases generator.counter_generate with next | ⟨last, wrapped⟩
      · omega
      · cases n with
        | zero => omega
        | succ n =>
          have below := first generator.generate.2.generate.1 List.mem_cons_self
          rw [generate_lt_iff small small', same, UInt64.lt_iff_toNat_lt] at below
          rcases below with other | ⟨-, later⟩
          · exact absurd other (UInt32.lt_irrefl _)
          · omega
    · intro room
      rcases generator.counter_generate with next | ⟨last, wrapped⟩
      · refine ⟨fun cloid member => ?_, by omega⟩
        obtain ⟨counter, later, rfl⟩ := mem_issue (by omega) member
        rw [UInt64.le_iff_toNat_le] at later
        have order := @generate_lt_iff generator ⟨generator.generate.2.instanceId, counter⟩ small
          small'
        refine order.mpr (.inr ⟨rfl, UInt64.lt_iff_toNat_lt.mpr ?_⟩)
        change generator.counter.toNat < counter.toNat
        omega
      · obtain rfl : n = 0 := by omega
        exact ⟨fun _ member => absurd member List.not_mem_nil, by omega⟩

/-- What the format of an id gives: its length, its two parts, its place in the order of all ids,
and the order of the ids of one generator. -/
structure SortsAndParses (generator : ClientOrderIdGenerator) : Prop where
  length : generator.generate.1.asStr.length = 24
  inst : generator.generate.1.parseInstance = some generator.instanceId
  counter : generator.generate.1.parseCounter = some generator.counter
  order : ∀ other : ClientOrderIdGenerator, other.instanceId ≤ 65535 →
    (generator.generate.1.asStr < other.generate.1.asStr ↔
      generator.instanceId < other.instanceId ∨
        generator.instanceId = other.instanceId ∧ generator.counter < other.counter)
  increasing : ∀ n, ((issue n generator).map ClientOrderId.asStr).Pairwise (· < ·) ↔
    generator.counter.toNat + n ≤ 2 ^ 64

theorem sortsAndParses {generator : ClientOrderIdGenerator}
    (small : generator.instanceId ≤ 65535) : generator.SortsAndParses where
  length := generate_length small
  inst := parseInstance_generate generator
  counter := parseCounter_generate generator
  order _ right := generate_lt_iff small right
  increasing := issue_increasing_iff small

theorem sortsAndParses_largest : SortsAndParses ⟨65535, 0xffffffffffffffff⟩ :=
  sortsAndParses (by decide)

/-- The id after the one with the largest counter is the smallest of its instance. -/
theorem issue_wraps :
    (issue 2 ⟨7, 0xffffffffffffffff⟩).map ClientOrderId.asStr =
        ["cc-0007-ffffffffffffffff", "cc-0007-0000000000000000"] ∧
      ¬((issue 2 ⟨7, 0xffffffffffffffff⟩).map ClientOrderId.asStr).Pairwise (· < ·) := by
  decide +kernel

end ClientOrderIdGenerator

end TradingConnectivity.Gateway
