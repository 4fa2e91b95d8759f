import TradingConnectivity.Codec.Writer

/-! # Writers that do not look behind their bytes

A local writer never changes the length of the buffer, and where it succeeds it would have done the
same in a longer buffer. If such a writer writes given bytes wherever they fit, it fails wherever
they do not (`Local.fits`). What a writer needs holds wherever it succeeds (`Needs`).
-/

namespace TradingConnectivity.Codec

variable {ε α β : Type}

/-- A writer that keeps the length of the buffer and succeeds independently of what lies behind. -/
structure Local (w : BufWriter ε α) : Prop where
  length : ∀ cursor, cursor.pos ≤ cursor.buf.length →
    (w cursor).2.buf.length = cursor.buf.length
  inside : ∀ cursor a after, cursor.pos ≤ cursor.buf.length → w cursor = (.ok a, after) →
    after.pos ≤ after.buf.length
  longer : ∀ cursor a after, cursor.pos ≤ cursor.buf.length → w cursor = (.ok a, after) →
    ∀ rest, w ⟨cursor.buf ++ rest, cursor.pos⟩ = (.ok a, ⟨after.buf ++ rest, after.pos⟩)

namespace Local

theorem pure (a : α) : Local (Pure.pure a : BufWriter ε α) where
  length _ _ := rfl
  inside := by
    rintro cursor b after within ran
    cases ran
    exact within
  longer := by
    rintro cursor b after - ran rest
    cases ran
    rfl

theorem throw (e : ε) : Local (throw e : BufWriter ε α) where
  length _ _ := rfl
  inside := by
    rintro cursor b after - ran
    cases ran
  longer := by
    rintro cursor b after - ran
    cases ran

theorem put (short : Cursor → ℕ → ε) (bytes : List UInt8) : Local (put short bytes) where
  length cursor within := by
    rw [Codec.put]
    split
    · rfl
    · rename_i enough
      rw [Cursor.remaining] at enough
      exact length_overlay (by omega)
  inside := by
    intro cursor a after within ran
    rw [Codec.put] at ran
    split at ran
    · cases ran
    · rename_i enough
      cases ran
      rw [Cursor.remaining] at enough
      have room : cursor.pos + bytes.length ≤ cursor.buf.length := by omega
      rwa [length_overlay room]
  longer := by
    intro cursor a after within ran rest
    rw [Codec.put] at ran
    split at ran
    · cases ran
    · rename_i enough
      cases ran
      rw [Cursor.remaining] at enough
      have here : cursor.pos + bytes.length ≤ cursor.buf.length := by omega
      have room : cursor.pos + bytes.length ≤ (cursor.buf ++ rest).length := by
        rw [List.length_append]
        omega
      rw [writes_put short bytes ⟨cursor.buf ++ rest, cursor.pos⟩ room, overlay_append here]

theorem bind {w : BufWriter ε α} {next : α → BufWriter ε β} (head : Local w)
    (tail : ∀ a, Local (next a)) : Local (w >>= next) := by
  have failed : ∀ cursor e after, w cursor = (.error e, after) →
      (w >>= next) cursor = (.error e, after) := by
    intro cursor e after ran
    simp only [Bind.bind, ExceptT.bind, ExceptT.mk, StateT.bind, ran, ExceptT.bindCont]
    rfl
  refine ⟨fun cursor within => ?_, fun cursor b last within ran => ?_,
    fun cursor b last within ran rest => ?_⟩
  · have kept := head.length cursor within
    cases first : w cursor with | mk result after =>
    rw [first] at kept
    cases result with
    | error e => rwa [failed cursor e after first]
    | ok a =>
      have moved := head.inside cursor a after within first
      rw [BufWriter.bind_of_ok next first, (tail a).length after moved]
      exact kept
  · cases first : w cursor with | mk result after =>
    cases result with
    | error e =>
      rw [failed cursor e after first] at ran
      cases ran
    | ok a =>
      rw [BufWriter.bind_of_ok next first] at ran
      exact (tail a).inside after b last (head.inside cursor a after within first) ran
  · cases first : w cursor with | mk result after =>
    cases result with
    | error e =>
      rw [failed cursor e after first] at ran
      cases ran
    | ok a =>
      rw [BufWriter.bind_of_ok next first] at ran
      rw [BufWriter.bind_of_ok next (head.longer cursor a after within first rest)]
      exact (tail a).longer after b last (head.inside cursor a after within first) ran rest

theorem forM {f : α → BufWriter ε Unit} (each : ∀ value, Local (f value)) (values : List α) :
    Local (values.forM f) := by
  induction values with
  | nil => exact .pure ()
  | cons value rest ih => exact (each value).bind fun _ => ih

theorem ite {p : Prop} [Decidable p] {first second : BufWriter ε α} (positive : Local first)
    (negative : Local second) : Local (if p then first else second) := by
  split
  · exact positive
  · exact negative

/-- The bytes of a writer that succeeded did fit. -/
theorem fits {w : BufWriter ε Unit} {bytes : List UInt8} (here : Local w) (writes : Writes w bytes)
    {cursor after : Cursor} (within : cursor.pos ≤ cursor.buf.length)
    (ran : w cursor = (.ok (), after)) : cursor.pos + bytes.length ≤ cursor.buf.length := by
  have size := here.length cursor within
  have bound := here.inside cursor () after within ran
  -- behind the buffer there is room for the bytes
  have again := here.longer cursor () after within ran bytes
  have room : cursor.pos + bytes.length ≤ (cursor.buf ++ bytes).length := by
    rw [List.length_append]
    omega
  rw [writes ⟨cursor.buf ++ bytes, cursor.pos⟩ room] at again
  have position : cursor.pos + bytes.length = after.pos := by
    have same := congrArg (fun result => result.2.pos) again
    exact same
  rw [ran] at size
  rwa [position, ← size]

end Local

/-- The writer succeeds only if this holds. -/
def Needs (w : BufWriter ε α) (P : Prop) : Prop := ∀ cursor a after, w cursor = (.ok a, after) → P

namespace Needs

theorem nothing (w : BufWriter ε α) : Needs w True := fun _ _ _ _ => trivial

theorem bind {w : BufWriter ε α} {next : α → BufWriter ε β} {P Q : Prop} (head : Needs w P)
    (tail : ∀ a, Needs (next a) Q) : Needs (w >>= next) (P ∧ Q) := by
  intro cursor b after ran
  cases first : w cursor with | mk result middle =>
  cases result with
  | ok a =>
    rw [BufWriter.bind_of_ok next first] at ran
    exact ⟨head cursor a middle first, tail a middle b after ran⟩
  | error e =>
    rw [BufWriter.bind_of_error next first] at ran
    cases ran

theorem mono {w : BufWriter ε α} {P Q : Prop} (needs : Needs w P) (weaker : P → Q) : Needs w Q :=
  fun cursor a after ran => weaker (needs cursor a after ran)

end Needs

end TradingConnectivity.Codec
