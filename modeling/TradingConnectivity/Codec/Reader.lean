import TradingConnectivity.Codec.Bytes
import TradingConnectivity.ToMathlib.Except

/-! # Reading a buffer by position

A reader consumes bytes from a buffer at a position and may fail. `Reads r bytes value` says that
wherever these bytes stand next, in whatever buffer, `r` consumes exactly them and returns the
value. The relation composes along `bind`, so a decoder written as a sequence of reads inverts an
encoder written as the concatenation of the same fields.
-/

namespace TradingConnectivity.Codec

/-- A buffer and the position of the next unread byte. -/
structure Cursor where
  buf : List UInt8
  pos : ℕ
deriving DecidableEq, Repr

abbrev Reader (ε α : Type) := StateT Cursor (Except ε) α

variable {ε α β : Type}

def Cursor.remaining (cursor : Cursor) : ℕ := cursor.buf.length - cursor.pos

/-- Fail unless `n` more bytes are there. -/
def need (short : Cursor → ℕ → ε) (n : ℕ) : Reader ε Unit := fun cursor =>
  if cursor.remaining < n then .error (short cursor n) else .ok ((), cursor)

/-- Take the next `n` bytes. -/
def take (short : Cursor → ℕ → ε) (n : ℕ) : Reader ε (List UInt8) := fun cursor =>
  if cursor.remaining < n then .error (short cursor n)
  else .ok ((cursor.buf.drop cursor.pos).take n, { cursor with pos := cursor.pos + n })

/-- The reader consumes exactly these bytes, wherever they stand, and returns the value. -/
def Reads (r : Reader ε α) (bytes : List UInt8) (value : α) : Prop :=
  ∀ cursor rest, cursor.buf.drop cursor.pos = bytes ++ rest →
    r cursor = .ok (value, { cursor with pos := cursor.pos + bytes.length })

/-- Unread bytes bound the remaining length from below. -/
theorem Cursor.le_remaining {cursor : Cursor} {bytes rest : List UInt8}
    (unread : cursor.buf.drop cursor.pos = bytes ++ rest) : bytes.length ≤ cursor.remaining := by
  have length := congrArg List.length unread
  simp only [List.length_drop, List.length_append] at length
  simp only [Cursor.remaining]
  omega

theorem Reads.pure (value : α) : Reads (Pure.pure value : Reader ε α) [] value :=
  fun _ _ _ => rfl

theorem Reads.bind {r : Reader ε α} {next : α → Reader ε β} {first second : List UInt8}
    {a : α} {b : β} (head : Reads r first a) (tail : Reads (next a) second b) :
    Reads (r >>= next) (first ++ second) b := by
  intro cursor rest unread
  rw [List.append_assoc] at unread
  have moved : cursor.buf.drop (cursor.pos + first.length) = second ++ rest := by
    rw [← List.drop_drop, unread, List.drop_left]
  have step : (r >>= next) cursor =
      next a { cursor with pos := cursor.pos + first.length } := by
    change (r cursor >>= fun p => next p.1 p.2) = _
    rw [head cursor _ unread]
    rfl
  rw [step, tail _ rest moved, List.length_append, Nat.add_assoc]

theorem Reads.map {r : Reader ε α} {bytes : List UInt8} {a : α} (f : α → β)
    (read : Reads r bytes a) : Reads (do let x ← r; return f x) bytes (f a) := by
  have all : Reads (r >>= fun x => Pure.pure (f x)) (bytes ++ []) (f a) :=
    read.bind (Reads.pure (f a))
  rwa [List.append_nil] at all

/-- A failed length check is the only way a check of available bytes fails. -/
theorem reads_need (short : Cursor → ℕ → ε) {n : ℕ} {bytes : List UInt8} {cursor : Cursor}
    {rest : List UInt8} (unread : cursor.buf.drop cursor.pos = bytes ++ rest)
    (enough : n ≤ bytes.length) : need short n cursor = .ok ((), cursor) := by
  have bound := Cursor.le_remaining unread
  rw [need, if_neg (by omega)]

private theorem reads_take (short : Cursor → ℕ → ε) (bytes : List UInt8) :
    Reads (take short bytes.length) bytes bytes := by
  intro cursor rest unread
  have bound := Cursor.le_remaining unread
  rw [take, if_neg (by omega), unread, List.take_left]

/-- An unsigned little-endian word of a given width. -/
def readLe (short : Cursor → ℕ → ε) (width : ℕ) : Reader ε ℕ := do
  return ofLeBytes (← take short width)

theorem reads_readLe (short : Cursor → ℕ → ε) {width n : ℕ} (fits : n < 256 ^ width) :
    Reads (readLe short width) (leBytes width n) n := by
  have taken := reads_take short (leBytes width n)
  rw [length_leBytes] at taken
  have read := taken.map ofLeBytes
  rwa [ofLeBytes_leBytes_of_lt fits] at read

/-! ## Framing -/

/-- The reader reads these bytes as the value, and fails when only a strict prefix of them is
left. -/
structure Frames (r : Reader ε α) (bytes : List UInt8) (value : α) : Prop where
  reads : Reads r bytes value
  truncated : ∀ cursor, cursor.buf.drop cursor.pos <+: bytes → cursor.buf.drop cursor.pos ≠ bytes →
    ∃ e, r cursor = .error e

theorem Frames.pure (value : α) : Frames (Pure.pure value : Reader ε α) [] value where
  reads := Reads.pure value
  truncated _ cut strict := absurd (List.prefix_nil.mp cut) strict

theorem Frames.bind {r : Reader ε α} {next : α → Reader ε β} {first second : List UInt8}
    {a : α} {b : β} (head : Frames r first a) (tail : Frames (next a) second b) :
    Frames (r >>= next) (first ++ second) b where
  reads := head.reads.bind tail.reads
  truncated cursor cut strict := by
    rcases List.prefix_or_prefix_of_prefix cut (List.prefix_append first second) with inside | whole
    · by_cases ends : cursor.buf.drop cursor.pos = first
      · -- the first part is complete and nothing of the second is left
        have moved : cursor.buf.drop (cursor.pos + first.length) = [] := by
          rw [← List.drop_drop, ends, List.drop_length]
        have left : second ≠ [] := by
          rintro rfl
          exact strict (ends.trans (List.append_nil first).symm)
        obtain ⟨e, fails⟩ := tail.truncated { cursor with pos := cursor.pos + first.length }
          (moved ▸ List.nil_prefix) (moved ▸ left.symm)
        refine ⟨e, ?_⟩
        change (r cursor >>= fun p => next p.1 p.2) = _
        rw [head.reads cursor [] (ends.trans (List.append_nil first).symm)]
        exact fails
      · obtain ⟨e, fails⟩ := head.truncated cursor inside ends
        refine ⟨e, ?_⟩
        change (r cursor >>= fun p => next p.1 p.2) = _
        rw [fails]
        rfl
    · obtain ⟨rest, unread⟩ := whole
      have moved : cursor.buf.drop (cursor.pos + first.length) = rest := by
        rw [← List.drop_drop, ← unread, List.drop_left]
      have short : rest <+: second := by
        rw [← unread] at cut
        exact (List.prefix_append_right_inj first).mp cut
      have left : rest ≠ second := by
        rintro rfl
        exact strict unread.symm
      obtain ⟨e, fails⟩ := tail.truncated { cursor with pos := cursor.pos + first.length }
        (moved.symm ▸ short) (moved.symm ▸ left)
      refine ⟨e, ?_⟩
      change (r cursor >>= fun p => next p.1 p.2) = _
      rw [head.reads cursor rest unread.symm]
      exact fails

theorem Frames.map {r : Reader ε α} {bytes : List UInt8} {a : α} (f : α → β)
    (read : Frames r bytes a) : Frames (do let x ← r; return f x) bytes (f a) := by
  have all : Frames (r >>= fun x => Pure.pure (f x)) (bytes ++ []) (f a) :=
    read.bind (Frames.pure (f a))
  rwa [List.append_nil] at all

/-- Fewer bytes than a strict prefix needs are left. -/
theorem Cursor.remaining_lt {cursor : Cursor} {bytes : List UInt8}
    (cut : cursor.buf.drop cursor.pos <+: bytes) (strict : cursor.buf.drop cursor.pos ≠ bytes) :
    cursor.remaining < bytes.length := by
  have bound := cut.length_le
  have differs : (cursor.buf.drop cursor.pos).length ≠ bytes.length := fun same =>
    strict (cut.eq_of_length same)
  rw [List.length_drop] at bound differs
  rw [Cursor.remaining]
  omega

theorem frames_take (short : Cursor → ℕ → ε) (bytes : List UInt8) :
    Frames (take short bytes.length) bytes bytes where
  reads := reads_take short bytes
  truncated cursor cut strict :=
    ⟨short cursor bytes.length, by rw [take, if_pos (Cursor.remaining_lt cut strict)]⟩

theorem frames_readLe (short : Cursor → ℕ → ε) {width n : ℕ} (fits : n < 256 ^ width) :
    Frames (readLe short width) (leBytes width n) n := by
  have taken := frames_take short (leBytes width n)
  rw [length_leBytes] at taken
  have read := taken.map ofLeBytes
  rwa [ofLeBytes_leBytes_of_lt fits] at read

/-- Words of the machine, by width. -/
theorem frames_uint8 (short : Cursor → ℕ → ε) (v : UInt8) :
    Frames (do let n ← readLe short 1; return UInt8.ofNat n) [v] v := by
  have bytes : [v] = leBytes 1 v.toNat := by simp [leBytes]
  have fits : v.toNat < 256 ^ 1 := v.toNat_lt
  have read := (frames_readLe short fits).map UInt8.ofNat
  rw [UInt8.ofNat_toNat] at read
  rwa [bytes]

theorem frames_uint64 (short : Cursor → ℕ → ε) (v : UInt64) :
    Frames (do let n ← readLe short 8; return UInt64.ofNat n) (uint64Bytes v) v := by
  have fits : v.toNat < 256 ^ 8 := by simpa using v.toNat_lt
  have read := (frames_readLe short fits).map UInt64.ofNat
  rwa [UInt64.ofNat_toNat] at read

theorem frames_int64 (short : Cursor → ℕ → ε) (v : Int64) :
    Frames (do let n ← readLe short 8; return (UInt64.ofNat n).toInt64) (int64Bytes v) v := by
  have fits : v.toUInt64.toNat < 256 ^ 8 := by simpa using v.toUInt64.toNat_lt
  have read := (frames_readLe short fits).map (fun n => (UInt64.ofNat n).toInt64)
  rwa [UInt64.ofNat_toNat, Int64.toInt64_toUInt64] at read

/-- A reader repeated a number of times. -/
def replicateM (r : Reader ε α) : ℕ → Reader ε (List α)
  | 0 => return []
  | n + 1 => do
    let value ← r
    let values ← replicateM r n
    return value :: values

theorem frames_replicateM {r : Reader ε α} {record : α → List UInt8}
    (each : ∀ value, Frames r (record value) value) (values : List α) :
    Frames (replicateM r values.length) (values.flatMap record) values := by
  induction values with
  | nil => exact Frames.pure []
  | cons value rest ih => exact (each value).bind (ih.map (value :: ·))

/-! ## Readers of fixed size -/

/-- When the reader succeeds it has consumed exactly `n` bytes of the same buffer. -/
def Advances (r : Reader ε α) (n : ℕ) : Prop :=
  ∀ cursor value after, r cursor = .ok (value, after) →
    after = { cursor with pos := cursor.pos + n }

/-- A reader made of two succeeds when both of them do. -/
theorem bind_ok {r : Reader ε α} {next : α → Reader ε β} {cursor after : Cursor} {b : β}
    (success : (r >>= next) cursor = .ok (b, after)) :
    ∃ a middle, r cursor = .ok (a, middle) ∧ next a middle = .ok (b, after) := by
  obtain ⟨⟨a, middle⟩, first, second⟩ := Except.bind_eq_ok_iff.mp success
  exact ⟨a, middle, first, second⟩

/-- Whatever the reader returns has the property. -/
def Yields (r : Reader ε α) (P : α → Prop) : Prop :=
  ∀ cursor value after, r cursor = .ok (value, after) → P value

theorem Yields.pure {P : α → Prop} {value : α} (holds : P value) :
    Yields (Pure.pure value : Reader ε α) P := by
  intro cursor result after success
  cases success
  exact holds

theorem Yields.bind {P : β → Prop} {r : Reader ε α} {next : α → Reader ε β}
    (each : ∀ a, Yields (next a) P) : Yields (r >>= next) P := by
  intro cursor result after success
  obtain ⟨a, middle, -, second⟩ := bind_ok success
  exact each a middle result after second

theorem Advances.pure (value : α) : Advances (Pure.pure value : Reader ε α) 0 := by
  intro cursor result after success
  cases success
  rfl

theorem Advances.bind {r : Reader ε α} {next : α → Reader ε β} {first second : ℕ}
    (head : Advances r first) (tail : ∀ a, Advances (next a) second) :
    Advances (r >>= next) (first + second) := by
  intro cursor result after success
  obtain ⟨a, middle, ran, rest⟩ := bind_ok success
  have moved := head cursor a middle ran
  have landed := tail a middle result after rest
  rw [landed, moved, Nat.add_assoc]

theorem Advances.map {r : Reader ε α} {n : ℕ} (f : α → β) (read : Advances r n) :
    Advances (do let x ← r; return f x) n := by
  have all : Advances (r >>= fun x => Pure.pure (f x)) (n + 0) :=
    read.bind fun a => Advances.pure (f a)
  rwa [Nat.add_zero] at all

private theorem advances_take (short : Cursor → ℕ → ε) (n : ℕ) : Advances (take short n) n := by
  intro cursor result after success
  unfold take at success
  split at success
  · cases success
  · cases success
    rfl

/-- A word that is read was there, and fits its width. -/
theorem readLe_ok {short : Cursor → ℕ → ε} {width n : ℕ} {cursor after : Cursor}
    (success : readLe short width cursor = .ok (n, after)) :
    n < 256 ^ width ∧ width ≤ cursor.remaining ∧
      after = { cursor with pos := cursor.pos + width } := by
  obtain ⟨bytes, middle, taken, read⟩ := bind_ok success
  obtain ⟨rfl, rfl⟩ := Prod.mk.inj (Except.ok.inj read)
  have moved := advances_take short width cursor bytes middle taken
  unfold take at taken
  split at taken
  · cases taken
  · next enough =>
    obtain ⟨rfl, -⟩ := Prod.mk.inj (Except.ok.inj taken)
    rw [Cursor.remaining] at enough ⊢
    have size : ((cursor.buf.drop cursor.pos).take width).length = width := by
      rw [List.length_take, List.length_drop]
      omega
    refine ⟨?_, by omega, moved⟩
    have bound := ofLeBytes_lt ((cursor.buf.drop cursor.pos).take width)
    rwa [size] at bound

theorem advances_readLe (short : Cursor → ℕ → ε) (width : ℕ) :
    Advances (readLe short width) width := (advances_take short width).map ofLeBytes

end TradingConnectivity.Codec
