import TradingConnectivity.Codec.Reader

/-! # Writing a buffer by position

A writer overwrites a buffer of fixed length at a position and may fail; the bytes it has written by
then stay. `Writes w bytes` says that wherever these bytes fit, `w` writes exactly them. A writer
and a reader mirror each other when some bytes are what the one writes and what the other reads back
(`Mirrors`), which composes along `bind` on both sides at once.
-/

namespace TradingConnectivity.Codec

abbrev BufWriter (ε : Type) := ExceptT ε (StateM Cursor)

variable {ε δ α β : Type}

/-- The buffer with these bytes at a position. -/
def overlay (buf : List UInt8) (pos : ℕ) (bytes : List UInt8) : List UInt8 :=
  buf.take pos ++ bytes ++ buf.drop (pos + bytes.length)

/-- Overwrite the next bytes, or fail when they do not fit. -/
def put (short : Cursor → ℕ → ε) (bytes : List UInt8) : BufWriter ε Unit := fun cursor =>
  if cursor.remaining < bytes.length then (.error (short cursor bytes.length), cursor)
  else (.ok (), ⟨overlay cursor.buf cursor.pos bytes, cursor.pos + bytes.length⟩)

/-- The writer writes exactly these bytes, wherever they fit. -/
def Writes (w : BufWriter ε Unit) (bytes : List UInt8) : Prop :=
  ∀ cursor, cursor.pos + bytes.length ≤ cursor.buf.length →
    w cursor = (.ok (), ⟨overlay cursor.buf cursor.pos bytes, cursor.pos + bytes.length⟩)

@[simp] theorem overlay_nil (buf : List UInt8) (pos : ℕ) : overlay buf pos [] = buf := by
  rw [overlay, List.append_nil, List.length_nil, Nat.add_zero, List.take_append_drop]

theorem length_overlay {buf bytes : List UInt8} {pos : ℕ} (fits : pos + bytes.length ≤ buf.length) :
    (overlay buf pos bytes).length = buf.length := by
  simp only [overlay, List.length_append, List.length_take, List.length_drop]
  omega

/-- Two writes one after the other are one write. -/
theorem overlay_overlay {buf first second : List UInt8} {pos : ℕ} (fits : pos ≤ buf.length) :
    overlay (overlay buf pos first) (pos + first.length) second =
      overlay buf pos (first ++ second) := by
  have front : (buf.take pos ++ first).length = pos + first.length := by
    rw [List.length_append, List.length_take_of_le fits]
  have kept : (overlay buf pos first).take (pos + first.length) = buf.take pos ++ first := by
    rw [overlay, ← front, List.take_left]
  have dropped : (overlay buf pos first).drop (pos + first.length + second.length) =
      buf.drop (pos + (first ++ second).length) := by
    rw [← List.drop_drop, overlay, List.drop_left' front, List.drop_drop, List.length_append,
      Nat.add_assoc]
  rw [overlay, kept, dropped, overlay]
  simp only [List.append_assoc]

section overlay

variable {buf bytes : List UInt8} {pos : ℕ}

/-- What stands before a write is left alone. -/
theorem take_overlay {n : ℕ} (before : n ≤ pos) (inside : pos ≤ buf.length) :
    (overlay buf pos bytes).take n = buf.take n := by
  rw [overlay, List.append_assoc, List.take_append_of_le_length, List.take_take,
    Nat.min_eq_left before]
  rw [List.length_take_of_le inside]
  exact before

/-- What stands behind a write is left alone. -/
theorem drop_overlay {n : ℕ} (behind : pos + bytes.length ≤ n) (inside : pos ≤ buf.length) :
    (overlay buf pos bytes).drop n = buf.drop n := by
  have front : (buf.take pos ++ bytes).length = pos + bytes.length := by
    rw [List.length_append, List.length_take_of_le inside]
  obtain ⟨more, rfl⟩ := Nat.exists_eq_add_of_le behind
  rw [← List.drop_drop, overlay, List.drop_left' front, List.drop_drop]

/-- A cut behind a write may be made before it. -/
theorem take_overlay_of_le {n : ℕ} (behind : pos + bytes.length ≤ n) (inside : pos ≤ buf.length) :
    (overlay buf pos bytes).take n = overlay (buf.take n) pos bytes := by
  have front : (buf.take pos ++ bytes).length = pos + bytes.length := by
    rw [List.length_append, List.length_take_of_le inside]
  obtain ⟨more, rfl⟩ := Nat.exists_eq_add_of_le behind
  rw [overlay, overlay, List.take_take, Nat.min_eq_left (by omega), List.drop_take, ← front,
    List.take_length_add_append, Nat.add_sub_cancel_left]

/-- The bytes of a write are read back. -/
theorem take_drop_overlay (inside : pos ≤ buf.length) :
    ((overlay buf pos bytes).drop pos).take bytes.length = bytes := by
  rw [overlay, List.append_assoc, List.drop_left' (List.length_take_of_le inside), List.take_left]

/-- A write into the front of a buffer. -/
theorem overlay_append {rest : List UInt8} (fits : pos + bytes.length ≤ buf.length) :
    overlay (buf ++ rest) pos bytes = overlay buf pos bytes ++ rest := by
  rw [overlay, overlay, List.take_append_of_le_length (by omega),
    List.drop_append_of_le_length fits, List.append_assoc _ _ rest]

end overlay

/-- A writer that succeeded hands its cursor to the next one. -/
theorem BufWriter.bind_of_ok {w : BufWriter ε α} (next : α → BufWriter ε β)
    {cursor after : Cursor} {a : α} (ran : w cursor = (.ok a, after)) :
    (w >>= next) cursor = next a after := by
  simp only [bind, ExceptT.bind, ExceptT.mk, StateT.bind, ran, ExceptT.bindCont]

/-- A writer that failed leaves its cursor and its error. -/
theorem BufWriter.bind_of_error {w : BufWriter ε α} (next : α → BufWriter ε β)
    {cursor after : Cursor} {e : ε} (ran : w cursor = (.error e, after)) :
    (w >>= next) cursor = (.error e, after) := by
  simp only [bind, ExceptT.bind, ExceptT.mk, StateT.bind, ran, ExceptT.bindCont]
  rfl

theorem Writes.pure : Writes (Pure.pure () : BufWriter ε Unit) [] := by
  intro cursor _
  rw [overlay_nil]
  rfl

theorem Writes.bind {w : BufWriter ε Unit} {next : Unit → BufWriter ε Unit}
    {first second : List UInt8} (head : Writes w first) (tail : Writes (next ()) second) :
    Writes (w >>= next) (first ++ second) := by
  intro cursor fits
  rw [List.length_append] at fits
  have step := BufWriter.bind_of_ok next (head cursor (by omega))
  have room : cursor.pos + first.length + second.length ≤
      (overlay cursor.buf cursor.pos first).length := by
    rw [length_overlay (by omega)]
    omega
  rw [step, tail _ room, overlay_overlay (by omega), List.length_append, Nat.add_assoc]

theorem writes_put (short : Cursor → ℕ → ε) (bytes : List UInt8) :
    Writes (put short bytes) bytes := by
  intro cursor fits
  have enough : ¬cursor.remaining < bytes.length := by
    rw [Cursor.remaining]
    omega
  rw [put, if_neg enough]

theorem writes_forM {f : α → BufWriter ε Unit} {record : α → List UInt8}
    (each : ∀ value, Writes (f value) (record value)) (values : List α) :
    Writes (values.forM f) (values.flatMap record) := by
  induction values with
  | nil => exact Writes.pure
  | cons value rest ih => exact (each value).bind ih

/-- The writer writes what the reader reads back as the value. -/
def Mirrors (w : BufWriter ε Unit) (r : Reader δ α) (value : α) : Prop :=
  ∃ bytes, Writes w bytes ∧ Frames r bytes value

theorem Mirrors.pure (value : α) :
    Mirrors (Pure.pure () : BufWriter ε Unit) (Pure.pure value : Reader δ α) value :=
  ⟨[], Writes.pure, Frames.pure value⟩

theorem Mirrors.bind {w : BufWriter ε Unit} {rest : Unit → BufWriter ε Unit} {r : Reader δ α}
    {next : α → Reader δ β} {a : α} {b : β} (head : Mirrors w r a)
    (tail : Mirrors (rest ()) (next a) b) : Mirrors (w >>= rest) (r >>= next) b := by
  obtain ⟨first, writes, frames⟩ := head
  obtain ⟨second, writes', frames'⟩ := tail
  exact ⟨first ++ second, writes.bind writes', frames.bind frames'⟩

theorem Mirrors.map {w : BufWriter ε Unit} {r : Reader δ α} {a : α} (f : α → β)
    (field : Mirrors w r a) : Mirrors w (do let x ← r; return f x) (f a) := by
  obtain ⟨bytes, writes, frames⟩ := field
  exact ⟨bytes, writes, frames.map f⟩

end TradingConnectivity.Codec
