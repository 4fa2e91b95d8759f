import Mathlib.Data.Nat.Digits.Lemmas
import TradingConnectivity.Codec.Bytes
import TradingConnectivity.Gateway.Types

/-! # Client order id generation

Ids are formatted from an instance and a counter in lower-case hexadecimal and parsed back with
`splitn(3, '-')` and `u64::from_str_radix`. Parsing an issued id returns its counter whatever the
instance, including instances that need more than four digits.
-/

namespace TradingConnectivity.Gateway

/-- `{:0width x}`: lower-case hexadecimal, padded with zeros to a minimal width. -/
def formatHex (width n : ℕ) : List Char :=
  ((Nat.digits 16 n).reverse.map Nat.digitChar).leftpad width '0'

/-- The value of a hexadecimal digit of either case. -/
def hexDigit? (c : Char) : Option ℕ :=
  if '0' ≤ c ∧ c ≤ '9' then some (c.toNat - 48)
  else if 'a' ≤ c ∧ c ≤ 'f' then some (c.toNat - 87)
  else if 'A' ≤ c ∧ c ≤ 'F' then some (c.toNat - 55)
  else none

/-- Digits accumulate from the left and fail on a non-digit or when the result does not fit. -/
def accumulateHex? (bits : ℕ) : ℕ → List Char → Option ℕ
  | acc, [] => some acc
  | acc, c :: rest => do
      let digit ← hexDigit? c
      if acc * 16 + digit < 2 ^ bits then accumulateHex? bits (acc * 16 + digit) rest else none

/-- `from_str_radix(_, 16)` of an unsigned integer type: one leading `+` is accepted. -/
def fromStrRadix16? (bits : ℕ) : List Char → Option ℕ
  | [] => none
  | ['+'] => none
  | '+' :: digits => accumulateHex? bits 0 digits
  | digits => accumulateHex? bits 0 digits

/-- `str::splitn`: at most `n` pieces, the last one with all separators it still holds. -/
def splitn (separator : Char) : ℕ → List Char → List (List Char)
  | 0, _ => []
  | 1, s => [s]
  | n + 2, s =>
      match s.dropWhile (· ≠ separator) with
      | [] => [s]
      | _ :: rest => s.takeWhile (· ≠ separator) :: splitn separator (n + 1) rest

namespace ClientOrderId

/-- The counter embedded in an id, `none` for ids that are not ours. -/
def parseCounter (cloid : ClientOrderId) : Option UInt64 :=
  match splitn '-' 3 cloid.asStr.toList with
  | [tag, _, counter] =>
      if tag = ['c', 'c'] then (fromStrRadix16? 64 counter).map UInt64.ofNat else none
  | _ => none

/-- The instance embedded in an id. -/
def parseInstance (cloid : ClientOrderId) : Option UInt32 :=
  match splitn '-' 3 cloid.asStr.toList with
  | tag :: inst :: _ =>
      if tag = ['c', 'c'] then (fromStrRadix16? 32 inst).map UInt32.ofNat else none
  | _ => none

end ClientOrderId

/-- Issues ids for one gateway instance. -/
structure ClientOrderIdGenerator where
  instanceId : UInt32
  counter : UInt64
deriving DecidableEq, Repr

namespace ClientOrderIdGenerator

def new (instanceId : UInt32) : ClientOrderIdGenerator := ⟨instanceId, 0⟩

/-- Resume after the highest counter seen; the counter saturates. -/
def withStartAfter (instanceId : UInt32) (lastCounter : UInt64) : ClientOrderIdGenerator :=
  ⟨instanceId, if lastCounter = -1 then lastCounter else lastCounter + 1⟩

/-- The characters of the id for a given instance and counter. -/
def format (instanceId : UInt32) (counter : UInt64) : List Char :=
  ['c', 'c', '-'] ++ formatHex 4 instanceId.toNat ++ ['-'] ++ formatHex 16 counter.toNat

/-- Issue the next id and advance the counter, which wraps. -/
def generate (generator : ClientOrderIdGenerator) : ClientOrderId × ClientOrderIdGenerator :=
  (⟨String.ofList (format generator.instanceId generator.counter)⟩,
    { generator with counter := generator.counter + 1 })

end ClientOrderIdGenerator

/-! ## Parsing an issued id -/

private theorem hexDigit?_digitChar {d : ℕ} (bound : d < 16) :
    hexDigit? (Nat.digitChar d) = some d := by
  interval_cases d <;> rfl

private theorem digitChar_ne {d : ℕ} (bound : d < 16) :
    Nat.digitChar d ≠ '-' ∧ Nat.digitChar d ≠ '+' := by
  interval_cases d <;> decide

private theorem hexDigit?_zero : hexDigit? '0' = some 0 := rfl

private theorem formatHex_ne_separator {width n : ℕ} {c : Char} (member : c ∈ formatHex width n) :
    c ≠ '-' ∧ c ≠ '+' := by
  simp only [formatHex, List.leftpad, List.mem_append, List.mem_replicate, List.mem_map,
    List.mem_reverse] at member
  rcases member with ⟨_, rfl⟩ | ⟨d, digit, rfl⟩
  · decide
  · exact digitChar_ne (Nat.digits_lt_base (by omega) digit)

theorem formatHex_length (width n : ℕ) :
    (formatHex width n).length = max width (Nat.digits 16 n).length := by
  simp only [formatHex, List.length_leftpad, List.length_map, List.length_reverse]

private theorem accumulateHex?_append (bits acc : ℕ) (first second : List Char) :
    accumulateHex? bits acc (first ++ second) =
      (accumulateHex? bits acc first).bind fun value => accumulateHex? bits value second := by
  induction first generalizing acc with
  | nil => rfl
  | cons c rest ih =>
    simp only [List.cons_append, accumulateHex?]
    cases hexDigit? c with
    | none => rfl
    | some digit =>
      simp only [Option.bind_eq_bind, Option.bind_some]
      split
      · exact ih _
      · rfl

private theorem accumulateHex?_zeros (bits count : ℕ) :
    accumulateHex? bits 0 (List.replicate count '0') = some 0 := by
  induction count with
  | zero => rfl
  | succ count ih =>
    simp [List.replicate_succ, accumulateHex?, hexDigit?_zero, ih]

private theorem accumulateHex?_digits {bits n : ℕ} (bound : n < 2 ^ bits) :
    accumulateHex? bits 0 ((Nat.digits 16 n).reverse.map Nat.digitChar) = some n := by
  induction n using Nat.strong_induction_on with
  | _ n ih =>
    rcases Nat.eq_zero_or_pos n with rfl | positive
    · simp [accumulateHex?]
    · have smaller : n / 16 < n := Nat.div_lt_self positive (by omega)
      have value : n / 16 * 16 + n % 16 = n := by omega
      rw [Nat.digits_def' (by omega) positive, List.reverse_cons, List.map_append,
        accumulateHex?_append, ih (n / 16) smaller (by omega), Option.bind_some, List.map_cons,
        List.map_nil, accumulateHex?, hexDigit?_digitChar (Nat.mod_lt n (by omega))]
      simp [value, bound, accumulateHex?]

/-- Formatting and parsing are inverse below the range of the type. -/
theorem fromStrRadix16?_formatHex {bits width n : ℕ} (positive : 0 < width)
    (bound : n < 2 ^ bits) : fromStrRadix16? bits (formatHex width n) = some n := by
  have digits : accumulateHex? bits 0 (formatHex width n) = some n := by
    rw [formatHex, List.leftpad, accumulateHex?_append, accumulateHex?_zeros, Option.bind_some,
      accumulateHex?_digits bound]
  have length := formatHex_length width n
  have unsigned : ∀ c ∈ formatHex width n, c ≠ '+' := fun c member =>
    (formatHex_ne_separator member).2
  cases shape : formatHex width n with
  | nil => rw [shape, List.length_nil] at length; omega
  | cons c rest =>
    have head : c ≠ '+' := unsigned c (shape ▸ List.mem_cons_self)
    rw [shape] at digits
    rw [← digits]
    unfold fromStrRadix16?
    split <;> simp_all

/-- A field without separators is the first piece. -/
theorem splitn_append {separator : Char} {n : ℕ} {field rest : List Char}
    (clean : ∀ c ∈ field, c ≠ separator) :
    splitn separator (n + 2) (field ++ separator :: rest) =
      field :: splitn separator (n + 1) rest := by
  have keep : ∀ c ∈ field, decide (c ≠ separator) = true := fun c member =>
    decide_eq_true (clean c member)
  have dropped : (field ++ separator :: rest).dropWhile (· ≠ separator) = separator :: rest := by
    rw [List.dropWhile_append_of_pos keep, List.dropWhile_cons_of_neg (by simp)]
  have taken : (field ++ separator :: rest).takeWhile (· ≠ separator) = field := by
    rw [List.takeWhile_append_of_pos keep, List.takeWhile_cons_of_neg (by simp), List.append_nil]
  simp only [splitn, dropped, taken]

private theorem splitn_format (instanceId : UInt32) (counter : UInt64) :
    splitn '-' 3 (ClientOrderIdGenerator.format instanceId counter) =
      [['c', 'c'], formatHex 4 instanceId.toNat, formatHex 16 counter.toNat] := by
  have shape : ClientOrderIdGenerator.format instanceId counter =
      ['c', 'c'] ++ '-' :: (formatHex 4 instanceId.toNat ++ '-' :: formatHex 16 counter.toNat) := by
    simp [ClientOrderIdGenerator.format]
  rw [shape, splitn_append (by simp),
    splitn_append (fun c member => (formatHex_ne_separator member).1)]
  rfl

/-- An issued id carries the counter it was issued with. -/
theorem parseCounter_generate (generator : ClientOrderIdGenerator) :
    generator.generate.1.parseCounter = some generator.counter := by
  have parsed : fromStrRadix16? 64 (formatHex 16 generator.counter.toNat) =
      some generator.counter.toNat :=
    fromStrRadix16?_formatHex (by omega) generator.counter.toNat_lt
  simp only [ClientOrderIdGenerator.generate, ClientOrderId.parseCounter, String.toList_ofList,
    splitn_format, if_true, parsed, Option.map_some, UInt64.ofNat_toNat]

/-- An issued id carries the instance it was issued by. -/
theorem parseInstance_generate (generator : ClientOrderIdGenerator) :
    generator.generate.1.parseInstance = some generator.instanceId := by
  have parsed : fromStrRadix16? 32 (formatHex 4 generator.instanceId.toNat) =
      some generator.instanceId.toNat :=
    fromStrRadix16?_formatHex (by omega) generator.instanceId.toNat_lt
  simp only [ClientOrderIdGenerator.generate, ClientOrderId.parseInstance, String.toList_ofList,
    splitn_format, if_true, parsed, Option.map_some, UInt32.ofNat_toNat]

/-- An id has at most 28 characters, of at most four bytes each. -/
theorem generate_utf8ByteSize (generator : ClientOrderIdGenerator) :
    generator.generate.1.asStr.utf8ByteSize ≤ 255 := by
  have instanceLength : (Nat.digits 16 generator.instanceId.toNat).length ≤ 8 :=
    (Nat.digits_length_le_iff (by omega) _).mpr generator.instanceId.toNat_lt
  have counterLength : (Nat.digits 16 generator.counter.toNat).length ≤ 16 :=
    (Nat.digits_length_le_iff (by omega) _).mpr generator.counter.toNat_lt
  have characters :
      (ClientOrderIdGenerator.format generator.instanceId generator.counter).length ≤ 28 := by
    simp only [ClientOrderIdGenerator.format, List.length_append, List.length_cons, List.length_nil,
      formatHex_length]
    omega
  have bytes := Codec.utf8ByteSize_ofList_le
    (ClientOrderIdGenerator.format generator.instanceId generator.counter)
  simp only [ClientOrderIdGenerator.generate]
  omega

end TradingConnectivity.Gateway
