import TradingConnectivity.ConnectorCore.Message

/-! # The message codec inverts itself

Every field writer is mirrored by the matching field reader, so every body is mirrored field by
field. Behind the header this gives the laws of a whole message (`Transmits`): encoding writes its
bytes and nothing else, these bytes decode to the message whatever follows, and no strict prefix of
them decodes.
-/

namespace TradingConnectivity.ConnectorCore

open Codec Encoder Decoder
open MarketData (PriceLevel)

/-! ## Fields -/

private theorem mirrors_putU8 (v : UInt8) : Mirrors (putU8 v) getU8 v :=
  ⟨[v], writes_put tooShort _, frames_uint8 tooShort v⟩

private theorem mirrors_putBool (v : Bool) : Mirrors (putBool v) getBool v := by
  have byte := (mirrors_putU8 (if v then 1 else 0)).map (fun byte => decide (byte ≠ 0))
  cases v <;> exact byte

private theorem frames_getU32 (v : UInt32) : Frames getU32 (uint32Bytes v) v := by
  have fits : v.toNat < 256 ^ 4 := by simpa using v.toNat_lt
  have read := (frames_readLe tooShort fits).map UInt32.ofNat
  rwa [UInt32.ofNat_toNat] at read

theorem mirrors_putU32 (v : UInt32) : Mirrors (putU32 v) getU32 v :=
  ⟨uint32Bytes v, writes_put tooShort _, frames_getU32 v⟩

theorem mirrors_putU64 (v : UInt64) : Mirrors (putU64 v) getU64 v :=
  ⟨uint64Bytes v, writes_put tooShort _, frames_uint64 tooShort v⟩

private theorem mirrors_putI64 (v : Int64) : Mirrors (putI64 v) getI64 v :=
  ⟨int64Bytes v, writes_put tooShort _, frames_int64 tooShort v⟩

private theorem frames_getU16 (v : UInt16) : Frames getU16 (uint16Bytes v) v := by
  have fits : v.toNat < 256 ^ 2 := by simpa using v.toNat_lt
  have read := (frames_readLe tooShort fits).map UInt16.ofNat
  rwa [UInt16.ofNat_toNat] at read

theorem mirrors_putStr {s : String} (fits : s.utf8ByteSize ≤ u16Max) :
    Mirrors (putStr s) getStr s := by
  have short : ¬(strBytes s).length > u16Max := Nat.not_lt.mpr fits
  have length : (UInt16.ofNat (strBytes s).length).toNat = (strBytes s).length :=
    UInt16.toNat_ofNat_of_lt' (Nat.lt_succ_of_le fits)
  refine ⟨uint16Bytes (UInt16.ofNat (strBytes s).length) ++ strBytes s, ?_, ?_⟩
  · simp only [putStr, if_neg short]
    exact (writes_put tooShort _).bind (writes_put tooShort _)
  · refine (frames_getU16 _).bind ?_
    rw [length, ← List.append_nil (strBytes s)]
    refine Frames.bind (a := strBytes s) ?_ ?_
    · rw [List.append_nil]
      exact frames_take tooShort (strBytes s)
    · rw [ofStrBytes?_strBytes]
      exact Frames.pure s

private theorem mirrors_putLevels {levels : List PriceLevel} (fits : levels.length ≤ u32Max) :
    Mirrors (putLevels levels) getLevels levels := by
  have short : ¬levels.length > u32Max := Nat.not_lt.mpr fits
  have count : (UInt32.ofNat levels.length).toNat = levels.length :=
    UInt32.toNat_ofNat_of_lt' (Nat.lt_succ_of_le fits)
  let record (lvl : PriceLevel) : List UInt8 := int64Bytes lvl.price ++ int64Bytes lvl.qty
  have writes : ∀ lvl, Writes (putLevel lvl) (record lvl) := fun lvl =>
    (writes_put tooShort _).bind (writes_put tooShort _)
  have frames : ∀ lvl, Frames getLevel (record lvl) lvl := fun lvl =>
    (frames_int64 tooShort lvl.price).bind ((frames_int64 tooShort lvl.qty).map _)
  refine ⟨uint32Bytes (UInt32.ofNat levels.length) ++ levels.flatMap record, ?_, ?_⟩
  · simp only [putLevels, if_neg short]
    exact (writes_put tooShort _).bind (writes_forM writes levels)
  · refine (frames_getU32 _).bind ?_
    rw [count]
    exact frames_replicateM frames levels

private theorem mirrors_putEnum {α : Type} {tryFrom : UInt8 → Except Error α} {byte : UInt8} {v : α}
    (accepted : tryFrom byte = .ok v) : Mirrors (putU8 byte) (getEnum tryFrom) v := by
  refine ⟨[byte] ++ [], ?_, (frames_uint8 tooShort byte).bind ?_⟩
  · rw [List.append_nil]
    exact writes_put tooShort [byte]
  · rw [accepted]
    exact Frames.pure v

/-! ## Messages -/

/-- Encoding a message overwrites the front of any buffer that has room for its bytes and reports
their number; the bytes decode to the message whatever follows them, and no strict prefix of them
decodes at all. -/
structure Transmits {α : Type} (header : MessageHeader)
    (encode : List UInt8 → Except Error ℕ × List UInt8) (decode : List UInt8 → Except Error α)
    (message : α) (bytes : List UInt8) : Prop where
  front : header.wire <+: bytes
  encodes : ∀ buf : List UInt8, bytes.length ≤ buf.length →
    encode buf = (.ok bytes.length, bytes ++ buf.drop bytes.length)
  decodes : ∀ trailing, decode (bytes ++ trailing) = .ok message
  truncated : ∀ cut, cut <+: bytes → cut ≠ bytes → ∃ e, decode cut = .error e

/-- What precedes the end of a message is either too short for a header or begins with it. -/
private theorem header_or_short {header : MessageHeader} {cut bytes : List UInt8}
    (front : header.wire <+: bytes) (part : cut <+: bytes) :
    cut.length < headerSize ∨ ∃ body, cut = header.wire ++ body := by
  rcases List.prefix_or_prefix_of_prefix part front with short | long
  · by_cases whole : cut = header.wire
    · exact .inr ⟨[], by rw [whole, List.append_nil]⟩
    · have strict := lt_of_le_of_ne short.length_le fun same => whole (short.eq_of_length same)
      rw [MessageHeader.length_wire] at strict
      exact .inl strict
  · obtain ⟨body, rfl⟩ := long
    exact .inr ⟨body, rfl⟩

variable {α : Type} {header : MessageHeader}

private theorem decodeWith_of_short {expected : MessageType} {body : MessageHeader → Reader Error α}
    {buf : List UInt8} (short : buf.length < headerSize) :
    decodeWith expected body buf = .error (.bufferTooShort headerSize buf.length) := by
  rw [decodeWith, MessageHeader.decode_short short]
  rfl

private theorem decodeWith_wire {expected : MessageType} {body : MessageHeader → Reader Error α}
    (announced : header.messageType = expected) (rest : List UInt8) :
    decodeWith expected body (header.wire ++ rest) =
      (body header ⟨rest, 0⟩).map Prod.fst := by
  have behind : (header.wire ++ rest).drop headerSize = rest := List.drop_left' header.length_wire
  simp only [decodeWith, MessageHeader.decode_wire, behind, announced, bind, Except.bind, ne_eq,
    not_true_eq_false, if_false]
  cases body header ⟨rest, 0⟩ <;> rfl

/-- A body that is mirrored field by field makes a message that is transmitted. -/
theorem transmits_with {expected : MessageType} {write : BufWriter Error Unit}
    {read : MessageHeader → Reader Error α} {message : α}
    (announced : header.messageType = expected) (mirrors : Mirrors write (read header) message) :
    ∃ bytes, Transmits header (encodeWith header write) (decodeWith expected read) message
      bytes := by
  obtain ⟨body, writes, frames⟩ := mirrors
  have size : (header.wire ++ body).length = headerSize + body.length := by
    rw [List.length_append, header.length_wire]
  refine ⟨header.wire ++ body, List.prefix_append _ _, ?_, ?_, ?_⟩
  · intro buf enough
    rw [size] at enough
    have behind : (header.wire ++ buf.drop headerSize).drop headerSize = buf.drop headerSize :=
      List.drop_left' header.length_wire
    have kept : (header.wire ++ buf.drop headerSize).take headerSize = header.wire :=
      List.take_left' header.length_wire
    have written := writes ⟨buf.drop headerSize, 0⟩ (by
      rw [List.length_drop, Nat.zero_add]
      omega)
    simp only [encodeWith, header.encodeInto_eq (by omega : headerSize ≤ buf.length), behind, kept,
      written, overlay, List.take_zero, List.nil_append, Nat.zero_add, List.drop_drop, size,
      List.append_assoc]
  · intro trailing
    rw [List.append_assoc, decodeWith_wire announced,
      frames.reads ⟨body ++ trailing, 0⟩ trailing rfl]
    rfl
  · intro cut part strict
    rcases header_or_short (List.prefix_append _ _) part with short | ⟨rest, rfl⟩
    · exact ⟨_, decodeWith_of_short short⟩
    · have inside : rest <+: body := (List.prefix_append_right_inj header.wire).mp part
      have missing : rest ≠ body := by
        rintro rfl
        exact strict rfl
      obtain ⟨e, fails⟩ := frames.truncated ⟨rest, 0⟩ inside missing
      exact ⟨e, by rw [decodeWith_wire announced, fails]; rfl⟩

namespace NormalizedMessage

/-- The type that announces a variant. -/
def messageType : NormalizedMessage → MessageType
  | instrumentDefinition _ => .instrumentDefinition
  | tradingStatus _ => .tradingStatus
  | bookSnapshot _ => .bookSnapshot
  | bookDelta _ => .bookDelta
  | bestBidOffer _ => .bestBidOffer
  | trade _ => .trade
  | markPrice _ => .markPrice
  | fundingRate _ => .fundingRate
  | liquidation _ => .liquidation
  | openInterest _ => .openInterest
  | accountUpdate _ => .accountUpdate
  | orderUpdate _ => .orderUpdate
  | heartbeat _ => .heartbeat
  | feedStatus _ => .feedStatus
  | gapDetected _ => .gapDetected
  | bookStale _ => .bookStale
  | bookRecovered _ => .bookRecovered

def strings : NormalizedMessage → List String
  | instrumentDefinition m => [m.symbol, m.baseAsset, m.quoteAsset]
  | tradingStatus m => [m.symbol]
  | bookSnapshot m => [m.symbol]
  | bookDelta m => [m.symbol]
  | bestBidOffer m => [m.symbol]
  | trade m => [m.symbol]
  | markPrice m => [m.symbol]
  | fundingRate m => [m.symbol]
  | liquidation m => [m.symbol]
  | openInterest m => [m.symbol]
  | gapDetected m => [m.symbol]
  | bookStale m => [m.symbol]
  | bookRecovered m => [m.symbol]
  | accountUpdate _ | orderUpdate _ | heartbeat _ | feedStatus _ => []

def levelLists : NormalizedMessage → List (List PriceLevel)
  | bookSnapshot m => [m.bids, m.asks]
  | bookDelta m => [m.bids, m.asks]
  | _ => []

/-- The header announces the variant, and every length fits its prefix. -/
structure WellFormed (m : NormalizedMessage) : Prop where
  announced : m.header.messageType = m.messageType
  strings : ∀ s ∈ m.strings, s.utf8ByteSize ≤ u16Max
  levels : ∀ levels ∈ m.levelLists, levels.length ≤ u32Max

/-- What `fromBytes` does behind a header that announces this type. -/
def decodeAs : MessageType → List UInt8 → Except Error NormalizedMessage
  | .instrumentDefinition, buf => (InstrumentDefinition.decode buf).map instrumentDefinition
  | .tradingStatus, buf => (TradingStatus.decode buf).map tradingStatus
  | .bookSnapshot, buf => (BookSnapshot.decode buf).map bookSnapshot
  | .bookDelta, buf => (BookDelta.decode buf).map bookDelta
  | .bestBidOffer, buf => (BestBidOffer.decode buf).map bestBidOffer
  | .trade, buf => (Trade.decode buf).map trade
  | .markPrice, buf => (MarkPrice.decode buf).map markPrice
  | .fundingRate, buf => (FundingRate.decode buf).map fundingRate
  | .liquidation, buf => (Liquidation.decode buf).map liquidation
  | .openInterest, buf => (OpenInterest.decode buf).map openInterest
  | .accountUpdate, buf => (AccountUpdate.decode buf).map accountUpdate
  | .orderUpdate, buf => (OrderUpdate.decode buf).map orderUpdate
  | .heartbeat, buf => (Heartbeat.decode buf).map heartbeat
  | .feedStatus, buf => (FeedStatus.decode buf).map feedStatus
  | .gapDetected, buf => (GapDetected.decode buf).map gapDetected
  | .bookStale, buf => (BookStale.decode buf).map bookStale
  | .bookRecovered, buf => (BookRecovered.decode buf).map bookRecovered
  | .bookChecksum, _ => .error (.unknownMessageType MessageType.bookChecksum.toByte)

theorem fromBytes_of_header {buf : List UInt8} (decoded : MessageHeader.decode buf = .ok header) :
    fromBytes buf = decodeAs header.messageType buf := by
  rw [fromBytes, decoded]
  simp only [bind, Except.bind]
  cases header.messageType <;> rfl

/-- A variant is transmitted when its body is mirrored. -/
theorem transmits_variant {expected : MessageType} {write : BufWriter Error Unit}
    {read : MessageHeader → Reader Error α} {message : α} (wrap : α → NormalizedMessage)
    (announced : header.messageType = expected)
    (dispatch : ∀ buf, decodeAs expected buf = (decodeWith expected read buf).map wrap)
    (mirrors : Mirrors write (read header) message) :
    ∃ bytes, Transmits header (encodeWith header write) fromBytes (wrap message) bytes := by
  obtain ⟨bytes, transmits⟩ := transmits_with announced mirrors
  refine ⟨bytes, transmits.front, transmits.encodes, ?_, ?_⟩
  · intro trailing
    obtain ⟨body, rfl⟩ := transmits.front
    have decoded := header.decode_wire (body ++ trailing)
    rw [← List.append_assoc] at decoded
    rw [fromBytes_of_header decoded, announced, dispatch, transmits.decodes trailing]
    rfl
  · intro cut part strict
    rcases header_or_short transmits.front part with short | ⟨body, rfl⟩
    · exact ⟨_, by rw [fromBytes, MessageHeader.decode_short short]; rfl⟩
    · obtain ⟨e, fails⟩ := transmits.truncated _ part strict
      refine ⟨e, ?_⟩
      rw [fromBytes_of_header (header.decode_wire body), announced, dispatch, fails]
      rfl

/-- Every well-formed message is transmitted. -/
theorem transmits {m : NormalizedMessage} (wellFormed : m.WellFormed) :
    ∃ bytes, Transmits m.header m.encodeInto fromBytes m bytes := by
  obtain ⟨announced, strings, levels⟩ := wellFormed
  cases m with
  | instrumentDefinition m =>
    have symbol := mirrors_putStr (strings m.symbol List.mem_cons_self)
    have base := mirrors_putStr (strings m.baseAsset (by simp [NormalizedMessage.strings]))
    have quoted := mirrors_putStr (strings m.quoteAsset (by simp [NormalizedMessage.strings]))
    exact transmits_variant instrumentDefinition announced (fun _ => rfl)
      (symbol.bind (base.bind (quoted.bind ((mirrors_putU32 _).bind ((mirrors_putU32 _).bind
        ((mirrors_putI64 _).bind ((mirrors_putI64 _).bind ((mirrors_putI64 _).bind
        ((mirrors_putI64 _).bind ((mirrors_putI64 _).bind ((mirrors_putBool _).map _)))))))))))
  | tradingStatus m =>
    have symbol := mirrors_putStr (strings m.symbol List.mem_cons_self)
    exact transmits_variant tradingStatus announced (fun _ => rfl)
      (symbol.bind ((mirrors_putBool _).map _))
  | bookSnapshot m =>
    have symbol := mirrors_putStr (strings m.symbol List.mem_cons_self)
    have bids := mirrors_putLevels (levels m.bids List.mem_cons_self)
    have asks := mirrors_putLevels (levels m.asks (List.mem_cons_of_mem _ List.mem_cons_self))
    exact transmits_variant bookSnapshot announced (fun _ => rfl)
      (symbol.bind ((mirrors_putU8 _).bind ((mirrors_putU8 _).bind ((mirrors_putU64 _).bind
        (bids.bind (asks.map _))))))
  | bookDelta m =>
    have symbol := mirrors_putStr (strings m.symbol List.mem_cons_self)
    have bids := mirrors_putLevels (levels m.bids List.mem_cons_self)
    have asks := mirrors_putLevels (levels m.asks (List.mem_cons_of_mem _ List.mem_cons_self))
    exact transmits_variant bookDelta announced (fun _ => rfl)
      (symbol.bind ((mirrors_putU8 _).bind ((mirrors_putU8 _).bind ((mirrors_putU64 _).bind
        ((mirrors_putU64 _).bind ((mirrors_putU64 _).bind (bids.bind (asks.map _))))))))
  | bestBidOffer m =>
    have symbol := mirrors_putStr (strings m.symbol List.mem_cons_self)
    exact transmits_variant bestBidOffer announced (fun _ => rfl)
      (symbol.bind ((mirrors_putU8 _).bind ((mirrors_putU8 _).bind ((mirrors_putI64 _).bind
        ((mirrors_putI64 _).bind ((mirrors_putI64 _).bind ((mirrors_putI64 _).bind
        ((mirrors_putU64 _).map _))))))))
  | trade m =>
    have symbol := mirrors_putStr (strings m.symbol List.mem_cons_self)
    have side := mirrors_putEnum (AggressorSide.tryFrom_toByte m.aggressorSide)
    exact transmits_variant trade announced (fun _ => rfl)
      (symbol.bind ((mirrors_putU8 _).bind ((mirrors_putU8 _).bind ((mirrors_putU64 _).bind
        ((mirrors_putI64 _).bind ((mirrors_putI64 _).bind ((mirrors_putI64 _).bind
        ((mirrors_putBool _).bind (side.map _)))))))))
  | markPrice m =>
    have symbol := mirrors_putStr (strings m.symbol List.mem_cons_self)
    exact transmits_variant markPrice announced (fun _ => rfl)
      (symbol.bind ((mirrors_putU8 _).bind ((mirrors_putI64 _).bind ((mirrors_putI64 _).map _))))
  | fundingRate m =>
    have symbol := mirrors_putStr (strings m.symbol List.mem_cons_self)
    exact transmits_variant fundingRate announced (fun _ => rfl)
      (symbol.bind ((mirrors_putU8 _).bind ((mirrors_putI64 _).bind ((mirrors_putI64 _).map _))))
  | liquidation m =>
    have symbol := mirrors_putStr (strings m.symbol List.mem_cons_self)
    have side := mirrors_putEnum (AggressorSide.tryFrom_toByte m.side)
    exact transmits_variant liquidation announced (fun _ => rfl)
      (symbol.bind ((mirrors_putU8 _).bind ((mirrors_putU8 _).bind (side.bind
        ((mirrors_putI64 _).bind ((mirrors_putI64 _).bind ((mirrors_putI64 _).bind
        ((mirrors_putI64 _).map _))))))))
  | openInterest m =>
    have symbol := mirrors_putStr (strings m.symbol List.mem_cons_self)
    exact transmits_variant openInterest announced (fun _ => rfl)
      (symbol.bind ((mirrors_putU8 _).bind ((mirrors_putI64 _).map _)))
  | accountUpdate m =>
    exact transmits_variant accountUpdate announced (fun _ => rfl) (.pure _)
  | orderUpdate m =>
    exact transmits_variant orderUpdate announced (fun _ => rfl) (.pure _)
  | heartbeat m =>
    exact transmits_variant heartbeat announced (fun _ => rfl) (.pure _)
  | feedStatus m =>
    have state := mirrors_putEnum (FeedState.tryFrom_toByte m.state)
    exact transmits_variant feedStatus announced (fun _ => rfl) (state.map _)
  | gapDetected m =>
    have symbol := mirrors_putStr (strings m.symbol List.mem_cons_self)
    exact transmits_variant gapDetected announced (fun _ => rfl)
      (symbol.bind ((mirrors_putU64 _).bind ((mirrors_putU64 _).map _)))
  | bookStale m =>
    have symbol := mirrors_putStr (strings m.symbol List.mem_cons_self)
    have reason := mirrors_putEnum (staleReasonTryFrom_byte m.reason)
    exact transmits_variant bookStale announced (fun _ => rfl) (symbol.bind (reason.map _))
  | bookRecovered m =>
    have symbol := mirrors_putStr (strings m.symbol List.mem_cons_self)
    exact transmits_variant bookRecovered announced (fun _ => rfl)
      (symbol.bind ((mirrors_putU64 _).map _))

/-- Encoding a well-formed message into any buffer that is large enough writes the same bytes and
reports their number; they decode to the message with any bytes behind them, and no strict prefix
of them decodes. -/
theorem fromBytes_encodeInto {m : NormalizedMessage} (wellFormed : m.WellFormed) :
    ∃ bytes : List UInt8,
      (∀ buf : List UInt8, bytes.length ≤ buf.length →
        m.encodeInto buf = (.ok bytes.length, bytes ++ buf.drop bytes.length)) ∧
      (∀ trailing, fromBytes (bytes ++ trailing) = .ok m) ∧
      ∀ k < bytes.length, ∃ e, fromBytes (bytes.take k) = .error e := by
  obtain ⟨bytes, transmits⟩ := transmits wellFormed
  refine ⟨bytes, transmits.encodes, transmits.decodes, fun k inside => ?_⟩
  apply transmits.truncated _ (List.take_prefix k bytes)
  intro whole
  have size := congrArg List.length whole
  rw [List.length_take] at size
  omega

/-- A snapshot with one bid and no ask. -/
def oneBid : NormalizedMessage :=
  .bookSnapshot {
    header := ⟨schemaVersion, .bookSnapshot, .binanceSpot, .spot, 1, 2, 0, 7, 0, tsNone, 0, 0⟩
    symbol := "BTCUSDT", priceScale := 2, qtyScale := 5, updateId := 42
    bids := [⟨100, 5⟩], asks := [] }

theorem fromBytes_encodeInto_oneBid :
    ∃ bytes : List UInt8,
      (∀ buf : List UInt8, bytes.length ≤ buf.length →
        oneBid.encodeInto buf = (.ok bytes.length, bytes ++ buf.drop bytes.length)) ∧
      (∀ trailing, fromBytes (bytes ++ trailing) = .ok oneBid) ∧
      ∀ k < bytes.length, ∃ e, fromBytes (bytes.take k) = .error e :=
  fromBytes_encodeInto ⟨rfl, by decide, by decide⟩

end NormalizedMessage

end TradingConnectivity.ConnectorCore
