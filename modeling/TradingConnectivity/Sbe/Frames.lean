import TradingConnectivity.Sbe.Layout

/-! # What the decoder accepts

The decoder succeeds exactly on the frames whose blocks are as long as announced, or as long as
their known fields where that is longer.
-/

namespace TradingConnectivity.Sbe

open Codec
open Normalize.Sbe (Decimal64 DepthLevel)

variable {pos : ℕ}

/-! ## Cursor -/

private theorem parses_readU8 : Parses pos readU8 fun v bytes => bytes =
    [v] := parses_uint8 tooShort

private theorem parses_readU16Le : Parses pos readU16Le fun v bytes => bytes = uint16Bytes v :=
  parses_uint16 tooShort

private theorem parses_readI64Le : Parses pos readI64Le fun v bytes => bytes = int64Bytes v :=
  parses_int64 tooShort

private theorem parses_readDecimal64 :
    Parses pos readDecimal64 fun d bytes => bytes = int64Bytes d.mantissa := by
  refine (parses_readI64Le.map Decimal64.mk).congr fun d bytes => ?_
  constructor
  · rintro ⟨mantissa, rfl, rfl⟩
    rfl
  · rintro rfl
    exact ⟨d.mantissa, rfl, rfl⟩

private theorem skipTo_of_passed {target : ℕ} (passed : target ≤ pos) (buf : List UInt8) :
    skipTo target ⟨buf, pos⟩ = .ok ((), ⟨buf, pos⟩) := by
  change (if target ≤ pos then pure () else _ : Reader SbeError Unit) ⟨buf, pos⟩ = _
  rw [if_pos passed]
  rfl

private theorem skipTo_of_ahead {target : ℕ} (ahead : ¬target ≤ pos) (buf : List UInt8) :
    skipTo target ⟨buf, pos⟩ =
      if buf.length - pos < target - pos then .error (tooShort ⟨buf, pos⟩ (target - pos))
      else .ok ((), ⟨buf, target⟩) := by
  change (if target ≤ pos then pure () else
    (do need tooShort (target - pos); set (⟨buf, target⟩ : Cursor)) : Reader SbeError Unit)
      ⟨buf, pos⟩ = _
  rw [if_neg ahead]
  change (need tooShort (target - pos) ⟨buf, pos⟩ >>= fun p => _) = _
  rw [need, Cursor.remaining]
  split <;> rfl

private theorem parses_skipTo (target : ℕ) :
    Parses pos (skipTo target) fun _ extension => pos + extension.length = max target pos := by
  intro buf u after
  by_cases passed : target ≤ pos
  · rw [skipTo_of_passed passed]
    constructor
    · intro success
      obtain ⟨-, rfl⟩ := Prod.mk.inj (Except.ok.inj success)
      exact ⟨[], buf.drop pos, rfl, by simp [passed], rfl⟩
    · rintro ⟨extension, rest, -, length, rfl⟩
      have none : extension.length = 0 := by omega
      rw [none]
      rfl
  · rw [skipTo_of_ahead passed]
    constructor
    · intro success
      split at success
      · cases success
      · next enough =>
        obtain ⟨-, rfl⟩ := Prod.mk.inj (Except.ok.inj success)
        have length : ((buf.drop pos).take (target - pos)).length = target - pos := by
          rw [List.length_take, List.length_drop]
          omega
        refine ⟨_, _, (List.take_append_drop (target - pos) (buf.drop pos)).symm, ?_, ?_⟩
        · change pos + _ = max target pos
          rw [length]
          omega
        · have reached : pos + (target - pos) = target := by omega
          rw [length, reached]
    · rintro ⟨extension, rest, unread, length, rfl⟩
      have enough : extension.length ≤ Cursor.remaining ⟨buf, pos⟩ := Cursor.le_remaining unread
      simp only [Cursor.remaining] at enough
      have reached : pos + extension.length = target := by omega
      rw [if_neg (by omega), reached]

/-- From behind the known fields the reader skips to the end of the block. -/
private theorem parses_extension {start known : ℕ} (behind : pos = start + known) (declared : ℕ) :
    Parses pos (skipTo (start + declared)) fun _ extension =>
      Room.reached declared known (known + extension.length) := by
  refine (parses_skipTo (start + declared)).congr fun _ extension => ?_
  rw [Room.reached, behind]
  omega

private theorem parses_decoded (bytes : List UInt8) :
    Parses pos (match ofStrBytes? bytes with
      | none => throw .invalidUtf8
      | some s => return s : Reader SbeError String)
      fun s back => strBytes s = bytes ∧ back = [] := by
  cases decodes : ofStrBytes? bytes with
  | none =>
    intro buf s after
    constructor
    · intro success
      cases success
    · rintro ⟨back, rest, -, ⟨rfl, -⟩, -⟩
      rw [ofStrBytes?_strBytes] at decodes
      cases decodes
  | some s =>
    refine (Parses.pure s).congr fun value back => and_congr_left fun _ => ?_
    constructor
    · rintro rfl
      exact strBytes_of_ofStrBytes? decodes
    · rintro rfl
      rw [ofStrBytes?_strBytes] at decodes
      exact Option.some.inj decodes

private theorem parses_readVarString : Parses pos readVarString VarString := by
  refine (parses_readU16Le.field length_uint16Bytes fun len =>
    (parses_take tooShort len.toNat).bind fun bytes _ _ => parses_decoded bytes).congr
      fun s bytes => ?_
  constructor
  · rintro ⟨len, _, ⟨taken, _, _, ⟨rfl, length⟩, ⟨same, rfl⟩, rfl⟩, rfl⟩
    refine ⟨len, ?_, by rw [same, List.append_nil]⟩
    rw [← length_strBytes, same, length]
  · rintro ⟨len, length, rfl⟩
    exact ⟨len, _, ⟨strBytes s, strBytes s, [], ⟨rfl, (length_strBytes s).trans length⟩,
      ⟨rfl, rfl⟩, (List.append_nil _).symm⟩, rfl⟩

private theorem parses_readDepthLevel (entryBlockLen : UInt16) :
    Parses pos (readDepthLevel entryBlockLen) fun lvl entry =>
      Block Room.reached entryBlockLen.toNat (levelBytes lvl) entry := by
  refine Parses.position (r := fun entryStart => (do
    let price ← readDecimal64
    let quantity ← readDecimal64
    skipTo (entryStart + entryBlockLen.toNat)
    return ⟨price, quantity⟩ : Reader SbeError DepthLevel)) ?_
  have width (d : Decimal64) : (int64Bytes d.mantissa).length = 8 := length_int64Bytes _
  refine (parses_readDecimal64.field width fun price => parses_readDecimal64.field width
    fun quantity => (parses_extension (Nat.add_assoc _ 8 8) _).bind
      fun _ _ _ => Parses.pure _).congr fun lvl entry => ?_
  constructor
  · rintro ⟨price, _, ⟨quantity, _, ⟨_, extension, _, reached, ⟨rfl, rfl⟩, rfl⟩, rfl⟩, rfl⟩
    exact ⟨extension, by simp [levelBytes], by simpa [← Nat.add_assoc] using reached⟩
  · rintro ⟨extension, rfl, reached⟩
    refine ⟨lvl.price, _, ⟨lvl.quantity, _, ⟨(), extension, [], ?_, ⟨rfl, rfl⟩, rfl⟩, rfl⟩, ?_⟩
    · simpa using reached
    · simp [levelBytes]

/-! ## Groups -/

private theorem parses_readGroupHeader : Parses pos readGroupHeader fun header bytes =>
    bytes = uint16Bytes header.1 ++ [header.2] := by
  refine (parses_readU16Le.field length_uint16Bytes fun blockLen =>
    parses_readU8.map fun count => (blockLen, count)).congr fun header bytes => ?_
  constructor
  · rintro ⟨blockLen, _, ⟨count, rfl, rfl⟩, rfl⟩
    rfl
  · rintro rfl
    exact ⟨header.1, _, ⟨header.2, rfl, rfl⟩, rfl⟩

/-- A group and what is read behind it. -/
theorem Parses.group {β : Type} {next : List DepthLevel → Reader SbeError β}
    {behind : List DepthLevel → Format β}
    (tail : ∀ pos levels, Parses pos (next levels) (behind levels)) :
    Parses pos (do
      let (entryLen, count) ← readGroupHeader
      let levels ← readDepthLevels entryLen count
      next levels) fun b bytes => ∃ levels front back,
        Group Room.reached levels front ∧ behind levels b back ∧ bytes = front ++ back := by
  have width (header : UInt16 × UInt8) : (uint16Bytes header.1 ++ [header.2]).length = 3 := by simp
  refine (parses_readGroupHeader.field width fun header =>
    (parses_replicateM (fun pos => parses_readDepthLevel header.1) header.2.toNat).bind
      fun levels _ _ => tail _ levels).congr fun b bytes => ?_
  constructor
  · rintro ⟨⟨entryLen, count⟩, _, ⟨levels, _, back, ⟨length, entries, denote, rfl⟩, rest, rfl⟩, rfl⟩
    refine ⟨levels, _, back, ⟨entryLen, count, entries, length, denote, rfl⟩, rest, ?_⟩
    simp
  · rintro ⟨levels, _, back, ⟨entryLen, count, entries, length, denote, rfl⟩, rest, rfl⟩
    refine ⟨(entryLen, count), _, ⟨levels, _, back, ⟨length, entries, denote, rfl⟩, rest, rfl⟩, ?_⟩
    simp

/-! ## Bodies -/

private theorem parses_tradeBody (hdr : SbeHeader) : Parses sbeHeaderSize (decodeTradeBody hdr)
    fun ev bytes => Body Room.reached hdr.blockLength.toNat (.trade ev) bytes := by
  have width (d : Decimal64) : (int64Bytes d.mantissa).length = 8 := length_int64Bytes _
  have one (v : UInt8) : [v].length = 1 := rfl
  unfold decodeTradeBody
  refine (parses_readI64Le.field length_int64Bytes fun eventTime =>
    parses_readI64Le.field length_int64Bytes fun transactTime =>
    parses_readI64Le.field length_int64Bytes fun tradeId =>
    parses_readDecimal64.field width fun price =>
    parses_readDecimal64.field width fun quantity =>
    parses_readI64Le.field length_int64Bytes fun buyerOrderId =>
    parses_readI64Le.field length_int64Bytes fun sellerOrderId =>
    parses_readU8.field one fun aggressor =>
    parses_readU8.field one fun maker =>
    (parses_extension (rfl : _ = sbeHeaderSize + 58) _).bind fun _ _ _ =>
      parses_readVarString.map _).congr fun ev bytes => ?_
  constructor
  · rintro ⟨eventTime, _, ⟨transactTime, _, ⟨tradeId, _, ⟨price, _, ⟨quantity, _, ⟨buyerOrderId, _,
      ⟨sellerOrderId, _, ⟨aggressor, _, ⟨maker, _, ⟨_, extension, symbol, reached,
        ⟨name, named, rfl⟩, rfl⟩, rfl⟩, rfl⟩, rfl⟩, rfl⟩, rfl⟩, rfl⟩, rfl⟩, rfl⟩, rfl⟩
    refine ⟨_, _, [], symbol, ⟨aggressor, maker, rfl, rfl, rfl⟩, ⟨extension, rfl, ?_⟩, rfl, named,
      ?_⟩
    · simpa [← Nat.add_assoc, Nat.add_right_comm _ extension.length] using reached
    · simp
  · rintro ⟨_, _, groups, symbol, ⟨aggressor, maker, side, flag, rfl⟩, ⟨extension, rfl, reached⟩,
      rfl, named, rfl⟩
    refine ⟨ev.eventTime, _, ⟨ev.transactTime, _, ⟨ev.tradeId, _, ⟨ev.price, _, ⟨ev.quantity, _,
      ⟨ev.buyerOrderId, _, ⟨ev.sellerOrderId, _, ⟨aggressor, _, ⟨maker, _, ⟨(), extension, symbol,
        ?_, ⟨ev.symbol, named, ?_⟩, rfl⟩, rfl⟩, rfl⟩, rfl⟩, rfl⟩, rfl⟩, rfl⟩, rfl⟩, rfl⟩, ?_⟩
    · simpa [← Nat.add_assoc, Nat.add_right_comm _ extension.length] using reached
    · rw [side, flag]
    · simp

private theorem parses_bboBody (hdr : SbeHeader) : Parses sbeHeaderSize (decodeBboBody hdr)
    fun ev bytes => Body Room.reached hdr.blockLength.toNat (.bbo ev) bytes := by
  have width (d : Decimal64) : (int64Bytes d.mantissa).length = 8 := length_int64Bytes _
  unfold decodeBboBody
  refine (parses_readI64Le.field length_int64Bytes fun eventTime =>
    parses_readI64Le.field length_int64Bytes fun transactTime =>
    parses_readDecimal64.field width fun bestBidPrice =>
    parses_readDecimal64.field width fun bestBidQty =>
    parses_readDecimal64.field width fun bestAskPrice =>
    parses_readDecimal64.field width fun bestAskQty =>
    (parses_extension (rfl : _ = sbeHeaderSize + 48) _).bind fun _ _ _ =>
      parses_readVarString.map _).congr fun ev bytes => ?_
  constructor
  · rintro ⟨eventTime, _, ⟨transactTime, _, ⟨bestBidPrice, _, ⟨bestBidQty, _, ⟨bestAskPrice, _,
      ⟨bestAskQty, _, ⟨_, extension, symbol, reached, ⟨name, named, rfl⟩, rfl⟩, rfl⟩, rfl⟩, rfl⟩,
        rfl⟩, rfl⟩, rfl⟩
    refine ⟨_, _, [], symbol, rfl, ⟨extension, rfl, ?_⟩, rfl, named, ?_⟩
    · simpa [← Nat.add_assoc] using reached
    · simp
  · rintro ⟨_, _, groups, symbol, rfl, ⟨extension, rfl, reached⟩, rfl, named, rfl⟩
    refine ⟨ev.eventTime, _, ⟨ev.transactTime, _, ⟨ev.bestBidPrice, _, ⟨ev.bestBidQty, _,
      ⟨ev.bestAskPrice, _, ⟨ev.bestAskQty, _, ⟨(), extension, symbol, ?_, ⟨ev.symbol, named, rfl⟩,
        rfl⟩, rfl⟩, rfl⟩, rfl⟩, rfl⟩, rfl⟩, ?_⟩
    · simpa [← Nat.add_assoc] using reached
    · simp

private theorem parses_depthSnapshotBody (hdr : SbeHeader) :
    Parses sbeHeaderSize (decodeDepthSnapshotBody hdr)
      fun ev bytes => Body Room.reached hdr.blockLength.toNat (.depthSnapshot ev) bytes := by
  unfold decodeDepthSnapshotBody
  refine (parses_readI64Le.field length_int64Bytes fun eventTime =>
    parses_readI64Le.field length_int64Bytes fun lastUpdateId =>
    (parses_extension (rfl : _ = sbeHeaderSize + 16) _).bind fun _ _ _ =>
      Parses.group fun _ bids => Parses.group fun _ asks =>
        parses_readVarString.map _).congr fun ev bytes => ?_
  constructor
  · rintro ⟨eventTime, _, ⟨lastUpdateId, _, ⟨_, extension, _, reached, ⟨bids, front, _, bidGroup,
      ⟨asks, back, symbol, askGroup, ⟨name, named, rfl⟩, rfl⟩, rfl⟩, rfl⟩, rfl⟩, rfl⟩
    refine ⟨_, _, _, symbol, rfl, ⟨extension, rfl, ?_⟩, ⟨front, back, bidGroup, askGroup, rfl⟩,
      named, ?_⟩
    · simpa [← Nat.add_assoc] using reached
    · simp
  · rintro ⟨_, _, _, symbol, rfl, ⟨extension, rfl, reached⟩, ⟨front, back, bidGroup, askGroup, rfl⟩,
      named, rfl⟩
    refine ⟨ev.eventTime, _, ⟨ev.lastUpdateId, _, ⟨(), extension, _, ?_, ⟨ev.bids, front, _,
      bidGroup, ⟨ev.asks, back, symbol, askGroup, ⟨ev.symbol, named, rfl⟩, rfl⟩, rfl⟩, rfl⟩, rfl⟩,
        ?_⟩
    · simpa [← Nat.add_assoc] using reached
    · simp

private theorem parses_depthDiffBody (hdr : SbeHeader) : Parses sbeHeaderSize
    (decodeDepthDiffBody hdr)
    fun ev bytes => Body Room.reached hdr.blockLength.toNat (.depthDiff ev) bytes := by
  unfold decodeDepthDiffBody
  refine (parses_readI64Le.field length_int64Bytes fun eventTime =>
    parses_readI64Le.field length_int64Bytes fun transactTime =>
    parses_readI64Le.field length_int64Bytes fun firstUpdateId =>
    parses_readI64Le.field length_int64Bytes fun finalUpdateId =>
    parses_readI64Le.field length_int64Bytes fun prevFinalUpdateId =>
    (parses_extension (rfl : _ = sbeHeaderSize + 40) _).bind fun _ _ _ =>
      Parses.group fun _ bids => Parses.group fun _ asks =>
        parses_readVarString.map _).congr fun ev bytes => ?_
  constructor
  · rintro ⟨eventTime, _, ⟨transactTime, _, ⟨firstUpdateId, _, ⟨finalUpdateId, _,
      ⟨prevFinalUpdateId, _, ⟨_, extension, _, reached, ⟨bids, front, _, bidGroup, ⟨asks, back,
        symbol, askGroup, ⟨name, named, rfl⟩, rfl⟩, rfl⟩, rfl⟩, rfl⟩, rfl⟩, rfl⟩, rfl⟩, rfl⟩
    refine ⟨_, _, _, symbol, rfl, ⟨extension, rfl, ?_⟩, ⟨front, back, bidGroup, askGroup, rfl⟩,
      named, ?_⟩
    · simpa [← Nat.add_assoc] using reached
    · simp
  · rintro ⟨_, _, _, symbol, rfl, ⟨extension, rfl, reached⟩, ⟨front, back, bidGroup, askGroup, rfl⟩,
      named, rfl⟩
    refine ⟨ev.eventTime, _, ⟨ev.transactTime, _, ⟨ev.firstUpdateId, _, ⟨ev.finalUpdateId, _,
      ⟨ev.prevFinalUpdateId, _, ⟨(), extension, _, ?_, ⟨ev.bids, front, _, bidGroup, ⟨ev.asks,
        back, symbol, askGroup, ⟨ev.symbol, named, rfl⟩, rfl⟩, rfl⟩, rfl⟩, rfl⟩, rfl⟩, rfl⟩, rfl⟩,
          ?_⟩
    · simpa [← Nat.add_assoc] using reached
    · simp

private theorem parses_named {α : Type} {r : Reader SbeError α} {make : α → SbeMessage}
    {template : TemplateId} {blockLength : ℕ}
    (parses : Parses pos r fun ev bytes => Body Room.reached blockLength (make ev) bytes)
    (named : ∀ msg : SbeMessage, msg.template = template ↔ ∃ ev, msg = make ev) :
    Parses pos (do let ev ← r; return make ev) fun msg bytes =>
      msg.template = template ∧ Body Room.reached blockLength msg bytes := by
  refine (parses.map make).congr fun msg bytes => ?_
  constructor
  · rintro ⟨ev, body, rfl⟩
    exact ⟨(named _).mpr ⟨ev, rfl⟩, body⟩
  · rintro ⟨same, body⟩
    obtain ⟨ev, rfl⟩ := (named msg).mp same
    exact ⟨ev, body, rfl⟩

private theorem parses_decodeBody (hdr : SbeHeader) (template : TemplateId) :
    Parses sbeHeaderSize (decodeBody hdr template) fun msg bytes =>
      msg.template = template ∧ Body Room.reached hdr.blockLength.toNat msg bytes := by
  cases template with
  | tradesStream =>
    exact parses_named (parses_tradeBody hdr) fun msg => by cases msg <;> simp [SbeMessage.template]
  | bestBidAsk =>
    exact parses_named (parses_bboBody hdr) fun msg => by cases msg <;> simp [SbeMessage.template]
  | depthSnapshot =>
    exact parses_named (parses_depthSnapshotBody hdr) fun msg => by
      cases msg <;> simp [SbeMessage.template]
  | depthDiff =>
    exact parses_named (parses_depthDiffBody hdr) fun msg => by
      cases msg <;> simp [SbeMessage.template]

/-! ## Frames -/

theorem SbeHeader.length_bytes (hdr : SbeHeader) : hdr.bytes.length = sbeHeaderSize := by
  simp [SbeHeader.bytes, sbeHeaderSize]

private theorem SbeHeader.decode_eq_ok_iff {buf : List UInt8} {hdr : SbeHeader} :
    SbeHeader.decode buf = .ok hdr ↔ ∃ rest, buf = hdr.bytes ++ rest := by
  constructor
  · intro decoded
    rw [decode] at decoded
    split at decoded
    · cases decoded
    · next enough =>
      obtain rfl := Except.ok.inj decoded
      rw [sbeHeaderSize] at enough
      have word {offset : ℕ} (inside : offset + 2 ≤ buf.length) :
          uint16Bytes (uint16At buf offset) ++ buf.drop (offset + 2) = buf.drop offset := by
        have two : ((buf.drop offset).take 2).length = 2 := by
          rw [List.length_take, List.length_drop]
          omega
        rw [uint16At, ConnectorCore.wordAt, uint16Bytes_ofNat_ofLeBytes two, ← List.drop_drop,
          List.take_append_drop]
      refine ⟨buf.drop 8, ?_⟩
      simp only [SbeHeader.bytes, List.append_assoc]
      rw [word (by omega), word (by omega), word (by omega), word (by omega), List.drop_zero]
  · rintro ⟨rest, rfl⟩
    have enough : ¬(hdr.bytes ++ rest).length < sbeHeaderSize := by
      rw [List.length_append, hdr.length_bytes]
      omega
    rw [decode, if_neg enough]
    congr 1
    exact congr (congr (congr (congrArg SbeHeader.mk (ofNat_ofLeBytes_uint16Bytes hdr.blockLength))
      (ofNat_ofLeBytes_uint16Bytes hdr.templateId)) (ofNat_ofLeBytes_uint16Bytes hdr.schemaId))
      (ofNat_ofLeBytes_uint16Bytes hdr.version)

private theorem SbeHeader.validateSchema_eq_ok_iff {hdr : SbeHeader} :
    hdr.validateSchema = .ok () ↔
      hdr.schemaId = spotSchemaId ∧ hdr.version ≤ spotSchemaVersionMax := by
  rw [validateSchema]
  by_cases schema : hdr.schemaId = spotSchemaId
  · by_cases newer : hdr.version > spotSchemaVersionMax
    · simp [schema, newer, UInt16.not_le.mpr newer]
    · simp [schema, newer, UInt16.not_lt.mp newer, pure, Except.pure]
  · simp only [schema, false_and, iff_false, if_true, ne_eq, not_false_eq_true]
    exact fun failed => nomatch failed

private theorem TemplateId.fromU16_eq_ok_iff {id : UInt16} {template : TemplateId} :
    TemplateId.fromU16 id = .ok template ↔ id = template.asU16 := by
  rw [fromU16]
  constructor
  · intro known
    split_ifs at known with zero one two three <;> cases known <;> assumption
  · rintro rfl
    cases template <;> rfl

/-- What the decoder returns is the message of a frame. -/
theorem frame_of_decodeMessage {buf : List UInt8} {msg : SbeMessage}
    (decoded : decodeMessage buf = .ok msg) : Frame Room.reached msg buf := by
  obtain ⟨hdr, header, decoded⟩ := Except.bind_eq_ok_iff.mp decoded
  obtain ⟨⟨⟩, valid, decoded⟩ := Except.bind_eq_ok_iff.mp decoded
  obtain ⟨template, known, decoded⟩ := Except.bind_eq_ok_iff.mp decoded
  obtain ⟨⟨message, after⟩, read, returned⟩ := Except.bind_eq_ok_iff.mp decoded
  obtain rfl := Except.ok.inj returned
  obtain ⟨rest, rfl⟩ := SbeHeader.decode_eq_ok_iff.mp header
  obtain ⟨schema, version⟩ := SbeHeader.validateSchema_eq_ok_iff.mp valid
  obtain ⟨body, trailing, unread, ⟨rfl, denotes⟩, -⟩ :=
    (parses_decodeBody hdr template _ _ _).mp read
  rw [← hdr.length_bytes, List.drop_left] at unread
  exact ⟨hdr, body, trailing, schema, version, TemplateId.fromU16_eq_ok_iff.mp known, denotes,
    by rw [unread]⟩

/-- A frame is decoded to its message. -/
theorem decodeMessage_of_frame {buf : List UInt8} {msg : SbeMessage}
    (frame : Frame Room.reached msg buf) : decodeMessage buf = .ok msg := by
  obtain ⟨hdr, body, trailing, schema, version, named, denotes, rfl⟩ := frame
  have unread : (hdr.bytes ++ (body ++ trailing)).drop sbeHeaderSize = body ++ trailing := by
    rw [← hdr.length_bytes, List.drop_left]
  have header : SbeHeader.decode (hdr.bytes ++ (body ++ trailing)) = .ok hdr :=
    SbeHeader.decode_eq_ok_iff.mpr ⟨body ++ trailing, rfl⟩
  have valid := SbeHeader.validateSchema_eq_ok_iff.mpr ⟨schema, version⟩
  have known := TemplateId.fromU16_eq_ok_iff.mpr named
  have read := (parses_decodeBody hdr msg.template _ msg _).mpr
    ⟨body, trailing, unread, ⟨rfl, denotes⟩, rfl⟩
  simp only [decodeMessage, header, valid, known, read, bind, Except.bind]
  rfl

end TradingConnectivity.Sbe
