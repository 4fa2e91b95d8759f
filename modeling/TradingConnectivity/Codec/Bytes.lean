import Mathlib.Algebra.Order.BigOperators.Group.List
import Mathlib.Tactic.Ring

/-! # Bytes of machine words and strings

Fixed-width little-endian words and UTF-8 strings as lists of bytes, with the laws that a decoder
needs: a word read back is the word modulo the width, a string read back is the string.
-/

namespace TradingConnectivity.Codec

/-- The `width` low bytes of a natural number, least significant first. -/
def leBytes : ℕ → ℕ → List UInt8
  | 0, _ => []
  | width + 1, n => UInt8.ofNat n :: leBytes width (n / 256)

/-- The natural number with these bytes, least significant first. -/
def ofLeBytes (bytes : List UInt8) : ℕ :=
  bytes.foldr (fun byte high => byte.toNat + 256 * high) 0

@[simp] theorem length_leBytes (width n : ℕ) : (leBytes width n).length = width := by
  induction width generalizing n with
  | zero => rfl
  | succ width ih => rw [leBytes, List.length_cons, ih]

private theorem ofLeBytes_leBytes (width n : ℕ) : ofLeBytes
    (leBytes width n) = n % 256 ^ width := by
  induction width generalizing n with
  | zero => simp [leBytes, ofLeBytes, Nat.mod_one]
  | succ width ih =>
    have tail : List.foldr (fun byte high => UInt8.toNat byte + 256 * high) 0
        (leBytes width (n / 256)) = n / 256 % 256 ^ width := ih (n / 256)
    have head : (UInt8.ofNat n).toNat = n % 256 := UInt8.toNat_ofNat'
    rw [ofLeBytes, leBytes, List.foldr_cons, tail, head, pow_succ', Nat.mod_mul]

/-- A word that fits its width reads back. -/
theorem ofLeBytes_leBytes_of_lt {width n : ℕ} (fits : n < 256 ^ width) :
    ofLeBytes (leBytes width n) = n := by
  rw [ofLeBytes_leBytes, Nat.mod_eq_of_lt fits]

/-- Only the low bytes are kept. -/
theorem leBytes_add_mul_pow (width n k : ℕ) :
    leBytes width (n + 256 ^ width * k) = leBytes width n := by
  induction width generalizing n with
  | zero => rfl
  | succ width ih =>
    have head : UInt8.ofNat (n + 256 * (256 ^ width * k)) = UInt8.ofNat n := by
      rw [← UInt8.toNat_inj, UInt8.toNat_ofNat', UInt8.toNat_ofNat', Nat.add_mul_mod_self_left]
    rw [pow_succ', Nat.mul_assoc, leBytes, leBytes, head,
      Nat.add_mul_div_left _ _ (Nat.succ_pos 255), ih]

theorem ofLeBytes_lt (bytes : List UInt8) : ofLeBytes bytes < 256 ^ bytes.length := by
  induction bytes with
  | nil => decide
  | cons byte rest ih =>
    have low := byte.toNat_lt
    have split : ofLeBytes (byte :: rest) = byte.toNat + 256 * ofLeBytes rest := rfl
    rw [split, List.length_cons, pow_succ']
    omega

/-- Bytes are those of the number they denote. -/
theorem leBytes_ofLeBytes (bytes : List UInt8) :
    leBytes bytes.length (ofLeBytes bytes) = bytes := by
  induction bytes with
  | nil => rfl
  | cons byte rest ih =>
    have low := byte.toNat_lt
    have split : ofLeBytes (byte :: rest) = byte.toNat + 256 * ofLeBytes rest := rfl
    have head : UInt8.ofNat (byte.toNat + 256 * ofLeBytes rest) = byte := by
      rw [← UInt8.toNat_inj, UInt8.toNat_ofNat']
      omega
    have tail : (byte.toNat + 256 * ofLeBytes rest) / 256 = ofLeBytes rest := by omega
    rw [split, List.length_cons, leBytes, head, tail, ih]

/-! ## Machine words -/

def uint64Bytes (v : UInt64) : List UInt8 := leBytes 8 v.toNat

def int64Bytes (v : Int64) : List UInt8 := uint64Bytes v.toUInt64

@[simp] theorem length_uint64Bytes (v : UInt64) : (uint64Bytes v).length = 8 := length_leBytes 8 _

@[simp] theorem length_int64Bytes (v : Int64) : (int64Bytes v).length = 8 := length_leBytes 8 _

theorem ofNat_ofLeBytes_uint64Bytes (v : UInt64) :
    UInt64.ofNat (ofLeBytes (uint64Bytes v)) = v := by
  rw [uint64Bytes, ofLeBytes_leBytes_of_lt (by simpa using v.toNat_lt), UInt64.ofNat_toNat]

def uint16Bytes (v : UInt16) : List UInt8 := leBytes 2 v.toNat

def uint32Bytes (v : UInt32) : List UInt8 := leBytes 4 v.toNat

@[simp] theorem length_uint16Bytes (v : UInt16) : (uint16Bytes v).length = 2 := length_leBytes 2 _

@[simp] theorem length_uint32Bytes (v : UInt32) : (uint32Bytes v).length = 4 := length_leBytes 4 _

theorem ofNat_ofLeBytes_uint16Bytes (v : UInt16) :
    UInt16.ofNat (ofLeBytes (uint16Bytes v)) = v := by
  rw [uint16Bytes, ofLeBytes_leBytes_of_lt (by simpa using v.toNat_lt), UInt16.ofNat_toNat]

theorem uint16Bytes_ofNat_ofLeBytes {bytes : List UInt8} (two : bytes.length = 2) :
    uint16Bytes (UInt16.ofNat (ofLeBytes bytes)) = bytes := by
  have fits := ofLeBytes_lt bytes
  rw [two] at fits
  rw [uint16Bytes, UInt16.toNat_ofNat_of_lt' fits, ← two, leBytes_ofLeBytes]

theorem ofNat_ofLeBytes_uint32Bytes (v : UInt32) :
    UInt32.ofNat (ofLeBytes (uint32Bytes v)) = v := by
  rw [uint32Bytes, ofLeBytes_leBytes_of_lt (by simpa using v.toNat_lt), UInt32.ofNat_toNat]

theorem uint64Bytes_injective : Function.Injective uint64Bytes :=
  Function.LeftInverse.injective (g := fun bytes => UInt64.ofNat (ofLeBytes bytes))
    ofNat_ofLeBytes_uint64Bytes

theorem int64Bytes_injective : Function.Injective int64Bytes :=
  uint64Bytes_injective.comp
    (Function.LeftInverse.injective (g := UInt64.toInt64) Int64.toInt64_toUInt64)

/-- Records of one positive width can be told apart in their concatenation. -/
theorem flatMap_injective {α β : Type*} {record : α → List β} {width : ℕ} (positive : 0 < width)
    (fixed : ∀ a, (record a).length = width) (injective : Function.Injective record) :
    Function.Injective (List.flatMap record) := by
  intro xs
  induction xs with
  | nil =>
    intro ys same
    cases ys with
    | nil => rfl
    | cons y ys =>
      have sizes := congrArg List.length same
      rw [List.flatMap_nil, List.flatMap_cons, List.length_nil, List.length_append, fixed] at sizes
      omega
  | cons x xs ih =>
    intro ys same
    cases ys with
    | nil =>
      have sizes := congrArg List.length same
      rw [List.flatMap_nil, List.flatMap_cons, List.length_nil, List.length_append, fixed] at sizes
      omega
    | cons y ys =>
      rw [List.flatMap_cons, List.flatMap_cons] at same
      obtain ⟨head, tail⟩ := List.append_inj same ((fixed x).trans (fixed y).symm)
      rw [injective head, ih tail]

/-! ## Strings -/

/-- The UTF-8 bytes of a string. -/
def strBytes (s : String) : List UInt8 := s.toByteArray.data.toList

/-- The string with these UTF-8 bytes, if they are valid. -/
def ofStrBytes? (bytes : List UInt8) : Option String := String.fromUTF8? bytes.toByteArray

@[simp] theorem length_strBytes (s : String) : (strBytes s).length = s.utf8ByteSize := rfl

theorem ofStrBytes?_strBytes (s : String) : ofStrBytes? (strBytes s) = some s := by
  have same : (strBytes s).toByteArray = s.toByteArray := by
    apply ByteArray.ext
    rw [List.data_toByteArray, strBytes, Array.toArray_toList]
  simp only [ofStrBytes?, same, String.fromUTF8?, s.isValidUTF8, dif_pos]
  rfl

/-- A string that is decoded has the bytes it is decoded from. -/
theorem strBytes_of_ofStrBytes? {bytes : List UInt8} {s : String}
    (decoded : ofStrBytes? bytes = some s) : strBytes s = bytes := by
  rw [ofStrBytes?, String.fromUTF8?] at decoded
  split at decoded
  · obtain rfl := Option.some.inj decoded
    exact List.toList_data_toByteArray
  · cases decoded

/-- A string that is decoded takes the bytes it is decoded from. -/
theorem utf8ByteSize_of_ofStrBytes? {bytes : List UInt8} {s : String}
    (decoded : ofStrBytes? bytes = some s) : s.utf8ByteSize = bytes.length := by
  rw [ofStrBytes?, String.fromUTF8?] at decoded
  split at decoded
  · obtain rfl := Option.some.inj decoded
    exact List.size_toByteArray
  · cases decoded

/-- A character takes at most four bytes. -/
theorem utf8ByteSize_ofList_le (characters : List Char) :
    (String.ofList characters).utf8ByteSize ≤ 4 * characters.length := by
  rw [← String.size_toByteArray, String.toByteArray_ofList, List.utf8Encode,
    List.size_toByteArray, List.length_flatMap]
  induction characters with
  | nil => rfl
  | cons c rest ih =>
    have head := c.utf8Size_le_four
    simp only [List.map_cons, List.sum_cons, String.length_utf8EncodeChar, List.length_cons]
    simp only [String.length_utf8EncodeChar] at ih
    omega

theorem utf8ByteSize_ofList_replicate (c : Char) (n : ℕ) :
    (String.ofList (List.replicate n c)).utf8ByteSize = n * c.utf8Size := by
  rw [← String.size_toByteArray, String.toByteArray_ofList, List.utf8Encode,
    List.size_toByteArray, List.length_flatMap, List.map_replicate, String.length_utf8EncodeChar]
  simp

/-- The string with these ASCII characters. -/
def asciiString (bytes : List UInt8) : String :=
  String.ofList (bytes.map fun byte => Char.ofNat byte.toNat)

private theorem utf8EncodeChar_ascii : ∀ n < 128,
    String.utf8EncodeChar (Char.ofNat n) = [UInt8.ofNat n] := by
  decide

theorem strBytes_asciiString {bytes : List UInt8} (ascii : ∀ byte ∈ bytes, byte.toNat < 128) :
    strBytes (asciiString bytes) = bytes := by
  rw [strBytes, asciiString, String.toByteArray_ofList, List.utf8Encode, List.data_toByteArray,
    List.flatMap_map]
  induction bytes with
  | nil => rfl
  | cons byte rest ih =>
    obtain ⟨head, tail⟩ := List.forall_mem_cons.mp ascii
    have later := ih tail
    simp only [List.flatMap_cons, utf8EncodeChar_ascii _ head, UInt8.ofNat_toNat] at later ⊢
    exact congrArg (byte :: ·) later

end TradingConnectivity.Codec
