import TradingConnectivity.Gateway.Journal

/-! # The journal codec inverts itself

Every field reader reads what the matching field writer wrote. The records of representable
entries therefore decode to these entries, one record at a time (`decodeOne_encodeEntry`) and
as a whole file (`decodeAll_encodeEntries`), whatever stands before and after them.
-/

namespace TradingConnectivity.Gateway

open Codec

/-- The lengths of an entry fit their prefixes, so that encoding loses nothing. -/
structure JournalEntry.Representable (entry : JournalEntry) : Prop where
  cloid : entry.cloid.asStr.utf8ByteSize ≤ 255
  symbol : ∀ timestampNs cloid request,
    entry = .orderRequested timestampNs cloid request → request.symbol.utf8ByteSize ≤ 255
  payload : (encodePayload entry).length ≤ 65535

/-- Only the id, a symbol and the record of a rejection can be too long. -/
theorem JournalEntry.Representable.of_short {entry : JournalEntry}
    (cloid : entry.cloid.asStr.utf8ByteSize ≤ 255)
    (symbol : ∀ timestampNs cloid request,
      entry = .orderRequested timestampNs cloid request → request.symbol.utf8ByteSize ≤ 255)
    (rejection : ∀ timestampNs cloid reason,
      entry = .orderRejected timestampNs cloid reason → (encodePayload entry).length ≤ 65535) :
    entry.Representable := by
  refine ⟨cloid, symbol, ?_⟩
  have field (s : String) : (Encoder.strU8 s).length = 1 + s.utf8ByteSize := by
    simp [Encoder.strU8, Encoder.u8, Nat.add_comm]
  cases entry with
  | orderRequested timestampNs id request =>
    have short := symbol _ _ _ rfl
    have price : (Encoder.limitPrice request.limitPrice).length ≤ 9 := by
      cases request.limitPrice <;> simp [Encoder.limitPrice, Encoder.u8, Encoder.i64]
    simp only [JournalEntry.cloid] at cloid
    simp only [encodePayload, List.length_append, field, Encoder.u8, Encoder.i64,
      length_int64Bytes, List.length_singleton]
    omega
  | orderRejected timestampNs id reason => exact rejection _ _ _ rfl
  | orderAcknowledged | orderFilled | orderCancelled | orderExpired =>
    simp only [JournalEntry.cloid] at cloid
    simp only [encodePayload, List.length_append, field, Encoder.u8, Encoder.i64, Encoder.u64,
      Encoder.bool, length_int64Bytes, length_uint64Bytes, List.length_singleton]
    omega

/-! ## Fields -/

namespace Decoder

private theorem reads_u8 (v : UInt8) : Reads u8 (Encoder.u8 v) v := (frames_uint8 tooShort v).reads

private theorem reads_u64 (v : UInt64) : Reads u64 (Encoder.u64 v) v :=
    (frames_uint64 tooShort v).reads

private theorem reads_i64 (v : Int64) : Reads i64 (Encoder.i64 v) v :=
    (frames_int64 tooShort v).reads

private theorem reads_u16 {n : ℕ} (fits : n ≤ 65535) : Reads u16 (Encoder.u16 n) n :=
  reads_readLe tooShort (by omega)

private theorem reads_bool (v : Bool) : Reads bool (Encoder.bool v) v := by
  have read := (reads_u8 (if v then 1 else 0)).map (fun byte => decide (byte ≠ 0))
  cases v <;> exact read

private theorem reads_str (s : String) : Reads (str s.utf8ByteSize) (strBytes s) s := by
  intro cursor rest unread
  have enough := reads_need tooShort unread (le_of_eq (length_strBytes s).symm)
  have taken : (cursor.buf.drop cursor.pos).take s.utf8ByteSize = strBytes s := by
    rw [unread, ← length_strBytes s, List.take_left]
  have got : (get : Reader Error Cursor) cursor = .ok (cursor, cursor) := rfl
  simp only [str, need, bind, StateT.bind, enough, Except.bind, got, taken, ofStrBytes?_strBytes]
  rfl

private theorem reads_strU8 {s : String} (fits : s.utf8ByteSize ≤ 255) :
    Reads strU8 (Encoder.strU8 s) s := by
  have length : (UInt8.ofNat (strBytes s).length).toNat = s.utf8ByteSize := by
    rw [length_strBytes, UInt8.toNat_ofNat', Nat.mod_eq_of_lt (by omega)]
  refine (reads_u8 _).bind ?_
  rw [length]
  exact reads_str s

private theorem reads_strU16 {s : String} (fits : s.utf8ByteSize ≤ 65535) :
    Reads strU16 (Encoder.strU16 s) s :=
  (reads_u16 fits).bind (reads_str s)

theorem reads_cloid {id : ClientOrderId} (fits : id.asStr.utf8ByteSize ≤ 255) :
    Reads cloid (Encoder.strU8 id.asStr) id :=
  (reads_strU8 fits).map ClientOrderId.mk

private theorem reads_enumU8 {α : Type} {tryFrom : UInt8 → Except UInt8 α} {byte : UInt8} {v : α}
    (accepted : tryFrom byte = .ok v) (offset : ℕ) (bad : UInt8 → CorruptReason) :
    Reads (enumU8 tryFrom offset bad) (Encoder.u8 byte) v := by
  rw [← List.append_nil (Encoder.u8 byte)]
  refine (reads_u8 byte).bind ?_
  rw [accepted]
  exact Reads.pure v

private theorem reads_limitPrice (price : Option Int64) :
    Reads limitPrice (Encoder.limitPrice price) price := by
  cases price with
  | none =>
    have tail : Reads (pure none : Reader Error (Option Int64)) [] none := Reads.pure none
    exact (reads_u8 0).bind tail
  | some p => exact (reads_u8 1).bind ((reads_i64 p).map some)

end Decoder

/-! ## Records -/

/-- A header that is not complete does not decode. -/
theorem frames_decodeHeader (entry : JournalEntry) {payloadLen : ℕ} (fits : payloadLen ≤ 65535) :
    Frames decodeHeader
      (Encoder.u8 entry.tag.toByte ++
        (Encoder.i64 entry.timestampNs ++ Encoder.u16 payloadLen))
      (entry.tag.toByte, entry.timestampNs, payloadLen) :=
  (frames_uint8 Decoder.tooShort _).bind ((frames_int64 Decoder.tooShort _).bind
    ((frames_readLe Decoder.tooShort (by omega)).map _))

/-- The payload of a representable entry reads back as the entry. -/
theorem reads_decodePayload {entry : JournalEntry} (fits : entry.Representable) (offset : ℕ) :
    Reads (decodePayload offset entry.timestampNs entry.tag) (encodePayload entry) entry := by
  have id := Decoder.reads_cloid fits.cloid
  cases entry with
  | orderRequested timestampNs cloid request =>
    have symbol := Decoder.reads_strU8 (fits.symbol _ _ _ rfl)
    have side := Decoder.reads_enumU8 (OrderSide.tryFrom_toByte request.side) offset .badSide
    have orderType :=
      Decoder.reads_enumU8 (OrderType.tryFrom_toByte request.orderType) offset .badOrderType
    have tif := Decoder.reads_enumU8 (TimeInForce.tryFrom_toByte request.timeInForce) offset .badTif
    simp only [encodePayload, List.append_assoc]
    exact id.bind (symbol.bind (side.bind (orderType.bind (tif.bind
      ((Decoder.reads_i64 request.qty).bind
        ((Decoder.reads_limitPrice request.limitPrice).map _))))))
  | orderAcknowledged timestampNs cloid exchangeId =>
    exact id.bind ((Decoder.reads_u64 exchangeId).map _)
  | orderFilled timestampNs cloid fillQty fillPrice isFinal =>
    simp only [encodePayload, List.append_assoc]
    exact id.bind ((Decoder.reads_i64 fillQty).bind ((Decoder.reads_i64 fillPrice).bind
      ((Decoder.reads_bool isFinal).map _)))
  | orderCancelled timestampNs cloid => exact id.map _
  | orderRejected timestampNs cloid reason =>
    have short : reason.utf8ByteSize ≤ 65535 := by
      have whole := fits.payload
      simp only [encodePayload, Encoder.strU16, List.length_append, length_strBytes] at whole
      omega
    exact id.bind ((Decoder.reads_strU16 short).map _)
  | orderExpired timestampNs cloid => exact id.map _

theorem length_encodeEntry (entry : JournalEntry) :
    (encodeEntry entry).length = 11 + (encodePayload entry).length := by
  simp [encodeEntry, Encoder.u8, Encoder.i64, Encoder.u16]
  omega

/-- Decoding a record succeeds exactly when its header, length, tag and payload do. -/
theorem decodeOne_eq_ok_iff {buf : List UInt8} {offset following : ℕ} {entry : JournalEntry} :
    decodeOne buf offset = .ok (entry, following) ↔
      ∃ tagByte timestampNs payloadLen dec tag after,
        decodeHeader ⟨buf, offset⟩ = .ok ((tagByte, timestampNs, payloadLen), dec) ∧
        Decoder.need payloadLen dec = .ok ((), dec) ∧
        EntryTag.tryFrom tagByte = .ok tag ∧
        decodePayload offset timestampNs tag ⟨(buf.drop dec.pos).take payloadLen, 0⟩ =
          .ok (entry, after) ∧
        following = dec.pos + payloadLen := by
  constructor
  · intro success
    obtain ⟨⟨⟨tagByte, timestampNs, payloadLen⟩, dec⟩, header, success⟩ :=
      Except.bind_eq_ok_iff.mp success
    cases length : Decoder.need payloadLen dec with
    | error e => simp only [length, reduceCtorEq] at success
    | ok unit =>
      have unmoved : Decoder.need payloadLen dec = .ok ((), dec) := by
        unfold Decoder.need Codec.need at length ⊢
        split at length
        · cases length
        · next enough => rw [if_neg enough]
      cases known : EntryTag.tryFrom tagByte with
      | error v => simp only [length, known, reduceCtorEq] at success
      | ok tag =>
        simp only [length, known] at success
        obtain ⟨⟨entry, after⟩, payload, made⟩ := Except.bind_eq_ok_iff.mp success
        obtain ⟨rfl, rfl⟩ := Prod.mk.inj (Except.ok.inj made)
        exact ⟨tagByte, timestampNs, payloadLen, dec, tag, after, header, unmoved, known, payload,
          rfl⟩
  · rintro ⟨tagByte, timestampNs, payloadLen, dec, tag, after, header, length, known, payload, rfl⟩
    simp only [decodeOne, header, bind, Except.bind, length, known, payload]
    rfl

/-- A record decodes to its entry wherever it stands in a buffer. -/
theorem decodeOne_encodeEntry {entry : JournalEntry} (fits : entry.Representable)
    {buf rest : List UInt8} {offset : ℕ} (unread : buf.drop offset = encodeEntry entry ++ rest) :
    decodeOne buf offset = .ok (entry, offset + (encodeEntry entry).length) := by
  have header := (frames_decodeHeader entry fits.payload).reads
  set payload := encodePayload entry with payloadDef
  set front := Encoder.u8 entry.tag.toByte ++
    (Encoder.i64 entry.timestampNs ++ Encoder.u16 payload.length) with frontDef
  have shape : encodeEntry entry = front ++ payload := by
    simp only [encodeEntry, frontDef, payloadDef, List.append_assoc]
  have atFront : buf.drop offset = front ++ (payload ++ rest) := by
    rw [unread, shape, List.append_assoc]
  have atPayload : buf.drop (offset + front.length) = payload ++ rest := by
    rw [← List.drop_drop, atFront, List.drop_left]
  have slice : (buf.drop (offset + front.length)).take payload.length = payload := by
    rw [atPayload, List.take_left]
  have body : decodePayload offset entry.timestampNs entry.tag
      ⟨(buf.drop (offset + front.length)).take payload.length, 0⟩ =
        .ok (entry, ⟨payload, 0 + payload.length⟩) := by
    rw [slice]
    exact reads_decodePayload fits offset ⟨payload, 0⟩ [] (by simp [payloadDef])
  have total : offset + (encodeEntry entry).length = offset + front.length + payload.length := by
    rw [shape, List.length_append, Nat.add_assoc]
  exact decodeOne_eq_ok_iff.mpr ⟨_, _, _, _, entry.tag, _, header ⟨buf, offset⟩ _ atFront,
    reads_need _ atPayload le_rfl, EntryTag.tryFrom_toByte _, body, total⟩

/-! ## Files -/

private theorem advances_decodeHeader : Advances decodeHeader (1 + (8 + 2)) :=
  ((advances_readLe _ 1).map _).bind fun _ =>
    ((advances_readLe _ 8).map _).bind fun _ => (advances_readLe _ 2).map _

/-- A record takes at least eleven bytes. -/
private theorem decodeOne_following {buf : List UInt8} {offset following : ℕ} {entry : JournalEntry}
    (decoded : decodeOne buf offset = .ok (entry, following)) : offset + 11 ≤ following := by
  obtain ⟨_, _, payloadLen, dec, _, _, header, _, _, _, rfl⟩ := decodeOne_eq_ok_iff.mp decoded
  have moved : dec.pos = offset + (1 + (8 + 2)) :=
    congrArg Cursor.pos (advances_decodeHeader _ _ _ header)
  omega

/-- A loop that succeeds has decoded its first record and all later ones. -/
theorem decodeLoop_ok {buf : List UInt8} {fuel pos : ℕ} {entries : List JournalEntry}
    (more : pos < buf.length) (success : decodeLoop buf (fuel + 1) pos = .ok entries) :
    ∃ entry following rest, decodeOne buf pos = .ok (entry, following) ∧
      decodeLoop buf fuel following = .ok rest ∧ entries = entry :: rest := by
  rw [decodeLoop, if_pos more] at success
  obtain ⟨⟨entry, following⟩, first, success⟩ := Except.bind_eq_ok_iff.mp success
  obtain ⟨rest, later, made⟩ := Except.bind_eq_ok_iff.mp success
  exact ⟨entry, following, rest, first, later, (Except.ok.inj made).symm⟩

/-- The fuel of `decodeAll` never runs out: more of it changes nothing. -/
theorem decodeLoop_fuel {buf : List UInt8} {fuel pos : ℕ} (enough : buf.length ≤ pos + fuel)
    (extra : ℕ) : decodeLoop buf (fuel + extra) pos = decodeLoop buf fuel pos := by
  induction fuel generalizing pos with
  | zero =>
    have done : ¬pos < buf.length := by omega
    cases extra with
    | zero => rfl
    | succ extra => simp only [decodeLoop, if_neg done]
  | succ fuel ih =>
    rw [Nat.add_right_comm]
    simp only [decodeLoop]
    split
    · cases decoded : decodeOne buf pos with
      | error e => rfl
      | ok result =>
        have forward := decodeOne_following decoded
        change (decodeLoop buf (fuel + extra) result.2 >>= _) = (decodeLoop buf fuel result.2 >>= _)
        rw [ih (by omega)]
    · rfl

/-- The records of representable entries decode to these entries. -/
theorem decodeAll_encodeEntries {entries : List JournalEntry}
    (fits : ∀ entry ∈ entries, entry.Representable) :
    decodeAll (entries.flatMap encodeEntry) = .ok entries := by
  suffices general : ∀ buf pos fuel, buf.drop pos = entries.flatMap encodeEntry →
      (buf.drop pos).length ≤ fuel → decodeLoop buf fuel pos = .ok entries by
    exact general _ 0 _ rfl le_rfl
  induction entries with
  | nil =>
    intro buf pos fuel unread _
    have done : ¬pos < buf.length := by
      have length := congrArg List.length unread
      simp only [List.length_drop, List.flatMap_nil, List.length_nil] at length
      omega
    cases fuel with
    | zero => rfl
    | succ fuel => rw [decodeLoop, if_neg done]
  | cons entry rest ih =>
    intro buf pos fuel unread enough
    have decoded := decodeOne_encodeEntry (fits entry List.mem_cons_self) unread
    have size := length_encodeEntry entry
    have moved : buf.drop (pos + (encodeEntry entry).length) = rest.flatMap encodeEntry := by
      rw [← List.drop_drop, unread, List.flatMap_cons, List.drop_left]
    have length := congrArg List.length unread
    simp only [List.length_drop, List.flatMap_cons, List.length_append] at length enough
    have more : pos < buf.length := by omega
    cases fuel with
    | zero => omega
    | succ fuel =>
      have tail := ih (fun other member => fits other (List.mem_cons_of_mem _ member)) buf
        (pos + (encodeEntry entry).length) fuel moved (by rw [List.length_drop]; omega)
      rw [decodeLoop, if_pos more, decoded]
      change (decodeLoop buf fuel (pos + (encodeEntry entry).length) >>= _) = _
      rw [tail]
      rfl

end TradingConnectivity.Gateway
