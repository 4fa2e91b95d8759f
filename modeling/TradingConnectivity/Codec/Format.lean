import TradingConnectivity.Codec.Reader

/-! # Readers of a format

A format relates values to the bytes that denote them. `Parses pos r format` says that `r`, standing
at a position, succeeds exactly on the bytes of the format and returns the value they denote: it
accepts nothing else and misses nothing. The relation composes along `bind`.
-/

namespace TradingConnectivity.Codec

/-- The bytes that denote a value. -/
abbrev Format (α : Type) := α → List UInt8 → Prop

variable {ε α β : Type}

/-- At this position the reader returns a value exactly if the next bytes denote it, and consumes
them. -/
def Parses (pos : ℕ) (r : Reader ε α) (format : Format α) : Prop :=
  ∀ buf value after, r ⟨buf, pos⟩ = .ok (value, after) ↔
    ∃ bytes rest, buf.drop pos = bytes ++ rest ∧ format value bytes ∧
      after = ⟨buf, pos + bytes.length⟩

variable {pos : ℕ}

theorem Parses.congr {r : Reader ε α} {format other : Format α} (parses : Parses pos r format)
    (same : ∀ value bytes, format value bytes ↔ other value bytes) : Parses pos r other := by
  intro buf value after
  simp only [parses buf value after, same]

theorem Parses.pure (value : α) :
    Parses pos (Pure.pure value : Reader ε α) fun v bytes => v = value ∧ bytes = [] := by
  intro buf v after
  constructor
  · intro success
    cases success
    exact ⟨[], buf.drop pos, rfl, ⟨rfl, rfl⟩, rfl⟩
  · rintro ⟨bytes, rest, unread, ⟨rfl, rfl⟩, rfl⟩
    rfl

theorem Parses.bind {r : Reader ε α} {next : α → Reader ε β} {first : Format α}
    {second : α → Format β} (head : Parses pos r first)
    (tail : ∀ a front, first a front → Parses (pos + front.length) (next a) (second a)) :
    Parses pos (r >>= next) fun b bytes =>
      ∃ a front back, first a front ∧ second a b back ∧ bytes = front ++ back := by
  intro buf b after
  constructor
  · intro success
    obtain ⟨a, middle, ran, rest⟩ := bind_ok success
    obtain ⟨front, behind, unread, denotes, rfl⟩ := (head buf a middle).mp ran
    obtain ⟨back, left, unread', denotes', rfl⟩ := (tail a front denotes buf b after).mp rest
    rw [← List.drop_drop, unread, List.drop_left] at unread'
    refine ⟨front ++ back, left, ?_, ⟨a, front, back, denotes, denotes', rfl⟩, ?_⟩
    · rw [unread, unread', List.append_assoc]
    · rw [List.length_append, Nat.add_assoc]
  · rintro ⟨bytes, left, unread, ⟨a, front, back, denotes, denotes', rfl⟩, rfl⟩
    rw [List.append_assoc] at unread
    have ran := (head buf a ⟨buf, pos + front.length⟩).mpr ⟨front, _, unread, denotes, rfl⟩
    have moved : buf.drop (pos + front.length) = back ++ left := by
      rw [← List.drop_drop, unread, List.drop_left]
    have rest := (tail a front denotes buf b ⟨buf, pos + front.length + back.length⟩).mpr
      ⟨back, left, moved, denotes', rfl⟩
    change (r ⟨buf, pos⟩ >>= fun p => next p.1 p.2) = _
    rw [ran, List.length_append, ← Nat.add_assoc]
    exact rest

theorem Parses.map {r : Reader ε α} {format : Format α} (parses : Parses pos r format)
    (f : α → β) : Parses pos (do let a ← r; return f a) fun b bytes =>
      ∃ a, format a bytes ∧ b = f a := by
  refine (parses.bind fun a front _ => Parses.pure (f a)).congr fun b bytes => ?_
  constructor
  · rintro ⟨a, front, back, denotes, ⟨rfl, rfl⟩, rfl⟩
    exact ⟨a, by rwa [List.append_nil], rfl⟩
  · rintro ⟨a, denotes, rfl⟩
    exact ⟨a, bytes, [], denotes, ⟨rfl, rfl⟩, (List.append_nil bytes).symm⟩

/-- A field of fixed width, followed by the rest. -/
theorem Parses.field {r : Reader ε α} {next : α → Reader ε β} {encode : α → List UInt8}
    {width : ℕ} {second : α → Format β} (head : Parses pos r fun a bytes => bytes = encode a)
    (fixed : ∀ a, (encode a).length = width)
    (tail : ∀ a, Parses (pos + width) (next a) (second a)) :
    Parses pos (r >>= next) fun b bytes =>
      ∃ a back, second a b back ∧ bytes = encode a ++ back := by
  have behind : ∀ a front, front = encode a →
      Parses (pos + front.length) (next a) (second a) := by
    rintro a front rfl
    rw [fixed]
    exact tail a
  refine (head.bind behind).congr fun b bytes => ?_
  constructor
  · rintro ⟨a, front, back, rfl, denotes, rfl⟩
    exact ⟨a, back, denotes, rfl⟩
  · rintro ⟨a, back, denotes, rfl⟩
    exact ⟨a, _, back, rfl, denotes, rfl⟩

/-- A reader that looks at its position. -/
theorem Parses.position {r : ℕ → Reader ε α} {format : Format α}
    (parses : Parses pos (r pos) format) :
    Parses pos (do let cursor ← get; r cursor.pos) format := parses

/-! ## Words -/

theorem parses_take (short : Cursor → ℕ → ε) (n : ℕ) :
    Parses pos (take short n) fun value bytes => value = bytes ∧ bytes.length = n := by
  intro buf value after
  rw [take, Cursor.remaining]
  constructor
  · intro success
    split at success
    · cases success
    · next enough =>
      obtain ⟨rfl, rfl⟩ := Prod.mk.inj (Except.ok.inj success)
      have length : ((buf.drop pos).take n).length = n := by
        rw [List.length_take, List.length_drop]
        exact Nat.min_eq_left (Nat.le_of_not_lt enough)
      exact ⟨_, _, (List.take_append_drop n (buf.drop pos)).symm, ⟨rfl, length⟩, by rw [length]⟩
  · rintro ⟨bytes, rest, unread, ⟨rfl, rfl⟩, rfl⟩
    have enough : value.length ≤ Cursor.remaining ⟨buf, pos⟩ := Cursor.le_remaining unread
    rw [Cursor.remaining] at enough
    rw [if_neg (by omega), unread, List.take_left]

private theorem parses_readLe (short : Cursor → ℕ → ε) (width : ℕ) :
    Parses pos (readLe short width) fun n bytes => n < 256 ^ width ∧ bytes = leBytes width n := by
  refine ((parses_take short width).map ofLeBytes).congr fun n bytes => ?_
  constructor
  · rintro ⟨taken, ⟨rfl, rfl⟩, rfl⟩
    exact ⟨ofLeBytes_lt taken, (leBytes_ofLeBytes taken).symm⟩
  · rintro ⟨fits, rfl⟩
    exact ⟨_, ⟨rfl, length_leBytes width n⟩, (ofLeBytes_leBytes_of_lt fits).symm⟩

theorem parses_uint8 (short : Cursor → ℕ → ε) :
    Parses pos (do let n ← readLe short 1; return UInt8.ofNat n) fun v bytes => bytes = [v] := by
  refine ((parses_readLe short 1).map UInt8.ofNat).congr fun v bytes => ?_
  constructor
  · rintro ⟨n, ⟨fits, rfl⟩, rfl⟩
    rfl
  · rintro rfl
    exact ⟨v.toNat, ⟨v.toNat_lt, by simp [leBytes]⟩, UInt8.ofNat_toNat.symm⟩

theorem parses_uint16 (short : Cursor → ℕ → ε) :
    Parses pos (do let n ← readLe short 2; return UInt16.ofNat n) fun v bytes =>
      bytes = uint16Bytes v := by
  refine ((parses_readLe short 2).map UInt16.ofNat).congr fun v bytes => ?_
  constructor
  · rintro ⟨n, ⟨fits, rfl⟩, rfl⟩
    rw [uint16Bytes, UInt16.toNat_ofNat_of_lt' fits]
  · rintro rfl
    exact ⟨v.toNat, ⟨v.toNat_lt, rfl⟩, UInt16.ofNat_toNat.symm⟩

theorem parses_int64 (short : Cursor → ℕ → ε) :
    Parses pos (do let n ← readLe short 8; return (UInt64.ofNat n).toInt64) fun v bytes =>
      bytes = int64Bytes v := by
  refine ((parses_readLe short 8).map fun n => (UInt64.ofNat n).toInt64).congr fun v bytes => ?_
  constructor
  · rintro ⟨n, ⟨fits, rfl⟩, rfl⟩
    rw [int64Bytes, uint64Bytes, UInt64.toUInt64_toInt64, UInt64.toNat_ofNat_of_lt' fits]
  · rintro rfl
    refine ⟨v.toUInt64.toNat, ⟨v.toUInt64.toNat_lt, rfl⟩, ?_⟩
    rw [UInt64.ofNat_toNat, Int64.toInt64_toUInt64]

/-! ## Repetition -/

theorem parses_replicateM {r : Reader ε α} {format : Format α}
    (each : ∀ pos, Parses pos r format) (n : ℕ) :
    Parses pos (replicateM r n) fun values bytes => values.length = n ∧
      ∃ parts, List.Forall₂ format values parts ∧ bytes = parts.flatten := by
  induction n generalizing pos with
  | zero =>
    refine (Parses.pure ([] : List α)).congr fun values bytes => ?_
    constructor
    · rintro ⟨rfl, rfl⟩
      exact ⟨rfl, [], .nil, rfl⟩
    · rintro ⟨none, parts, denote, rfl⟩
      obtain rfl := List.length_eq_zero_iff.mp none
      cases denote
      exact ⟨rfl, rfl⟩
  | succ n ih =>
    refine ((each pos).bind fun value front _ => ih.map (value :: ·)).congr fun values bytes => ?_
    constructor
    · rintro ⟨value, front, back, head, ⟨rest, ⟨length, parts, denote, rfl⟩, rfl⟩, rfl⟩
      exact ⟨congrArg Nat.succ length, front :: parts, .cons head denote, rfl⟩
    · rintro ⟨length, parts, denote, rfl⟩
      cases denote with
      | nil => cases length
      | cons head tail =>
        exact ⟨_, _, _, head, ⟨_, ⟨Nat.succ.inj length, _, tail, rfl⟩, rfl⟩, rfl⟩

end TradingConnectivity.Codec
