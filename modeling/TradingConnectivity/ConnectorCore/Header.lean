import TradingConnectivity.Codec.Writer
import TradingConnectivity.ConnectorCore.Types

/-! # The message header

Every message begins with a header of 56 bytes at fixed offsets. Encoding overwrites these bytes of
a buffer, decoding reads them back and checks the three enumerations.
-/

namespace TradingConnectivity.ConnectorCore

open Codec

def schemaVersion : UInt8 := 1

/-- The timestamp of a field the exchange does not send. -/
def tsNone : Int64 := 0

def headerSize : ℕ := 56

structure MessageHeader where
  schemaVersion : UInt8
  messageType : MessageType
  venueId : VenueId
  marketType : MarketType
  instrumentId : UInt32
  connectionId : UInt32
  instanceId : UInt32
  sequenceNumber : UInt64
  /-- Timestamps are in nanoseconds since the Unix epoch. -/
  exchangeEventTs : Int64
  exchangeTxTs : Int64
  localRecvTs : Int64
  localPublishTs : Int64
deriving DecidableEq, Repr

/-! ## Fields at fixed offsets -/

/-- The word of `width` bytes at an offset. -/
def wordAt (buf : List UInt8) (offset width : ℕ) : ℕ := ofLeBytes ((buf.drop offset).take width)

def uint32At (buf : List UInt8) (offset : ℕ) : UInt32 := UInt32.ofNat (wordAt buf offset 4)

def uint64At (buf : List UInt8) (offset : ℕ) : UInt64 := UInt64.ofNat (wordAt buf offset 8)

def int64At (buf : List UInt8) (offset : ℕ) : Int64 := (uint64At buf offset).toInt64

namespace MessageHeader

/-- Encode into the first bytes of a buffer. -/
def encodeInto (header : MessageHeader) (buf : List UInt8) : Except Error Unit × List UInt8 :=
  if buf.length < headerSize then (.error (.bufferTooShort headerSize buf.length), buf)
  else
    let buf := overlay buf 0 [header.schemaVersion]
    let buf := overlay buf 1 [header.messageType.toByte]
    let buf := overlay buf 2 [header.venueId.toByte]
    let buf := overlay buf 3 [header.marketType.toByte]
    let buf := overlay buf 4 (uint32Bytes header.instrumentId)
    let buf := overlay buf 8 (uint32Bytes header.connectionId)
    let buf := overlay buf 12 (uint32Bytes header.instanceId)
    let buf := overlay buf 16 (uint64Bytes header.sequenceNumber)
    let buf := overlay buf 24 (int64Bytes header.exchangeEventTs)
    let buf := overlay buf 32 (int64Bytes header.exchangeTxTs)
    let buf := overlay buf 40 (int64Bytes header.localRecvTs)
    let buf := overlay buf 48 (int64Bytes header.localPublishTs)
    (.ok (), buf)

/-- Decode from the first bytes of a buffer; what follows them is ignored. -/
def decode (buf : List UInt8) : Except Error MessageHeader := do
  if buf.length < headerSize then throw (.bufferTooShort headerSize buf.length)
  let messageType ← MessageType.tryFrom (buf.getD 1 0)
  let venueId ← VenueId.tryFrom (buf.getD 2 0)
  let marketType ← MarketType.tryFrom (buf.getD 3 0)
  return {
    schemaVersion := buf.getD 0 0
    messageType, venueId, marketType
    instrumentId := uint32At buf 4
    connectionId := uint32At buf 8
    instanceId := uint32At buf 12
    sequenceNumber := uint64At buf 16
    exchangeEventTs := int64At buf 24
    exchangeTxTs := int64At buf 32
    localRecvTs := int64At buf 40
    localPublishTs := int64At buf 48 }

/-- The bytes of a header. -/
def wire (header : MessageHeader) : List UInt8 :=
  [header.schemaVersion, header.messageType.toByte, header.venueId.toByte,
    header.marketType.toByte] ++
  (uint32Bytes header.instrumentId ++ (uint32Bytes header.connectionId ++
    (uint32Bytes header.instanceId ++ (uint64Bytes header.sequenceNumber ++
      (int64Bytes header.exchangeEventTs ++ (int64Bytes header.exchangeTxTs ++
        (int64Bytes header.localRecvTs ++ int64Bytes header.localPublishTs)))))))

@[simp] theorem length_wire (header : MessageHeader) : header.wire.length = headerSize := by
  simp [wire, headerSize]

/-! ## The codec -/

/-- A write right behind another one at the start of the buffer. -/
private theorem overlay_next {buf first second : List UInt8} {pos : ℕ} (next : pos = first.length) :
    overlay (overlay buf 0 first) pos second = overlay buf 0 (first ++ second) := by
  rw [next, ← Nat.zero_add first.length, overlay_overlay (Nat.zero_le _)]

/-- Encoding replaces the first bytes of a buffer by those of the header. -/
theorem encodeInto_eq (header : MessageHeader) {buf : List UInt8}
    (enough : headerSize ≤ buf.length) :
    header.encodeInto buf = (.ok (), header.wire ++ buf.drop headerSize) := by
  rw [encodeInto, if_neg (by omega)]
  simp only
  iterate 11 rw [overlay_next (by simp)]
  have whole (bytes : List UInt8) : overlay buf 0 bytes = bytes ++ buf.drop bytes.length := by
    rw [overlay, List.take_zero, List.nil_append, Nat.zero_add]
  rw [whole]
  simp [wire, headerSize]

private theorem drop_next {buf field rest : List UInt8} {pos : ℕ} (next : ℕ)
    (unread : buf.drop pos = field ++ rest) (width : next = pos + field.length) :
    buf.drop next = rest := by
  rw [width, ← List.drop_drop, unread, List.drop_left]

private theorem wordAt_of_drop {buf field rest : List UInt8} {pos width : ℕ}
    (unread : buf.drop pos = field ++ rest) (length : field.length = width) :
    wordAt buf pos width = ofLeBytes field := by
  rw [wordAt, unread, ← length, List.take_left]

private theorem uint32At_of_drop {buf rest : List UInt8} {pos : ℕ} {v : UInt32}
    (unread : buf.drop pos = uint32Bytes v ++ rest) : uint32At buf pos = v := by
  rw [uint32At, wordAt_of_drop unread (length_uint32Bytes v), ofNat_ofLeBytes_uint32Bytes]

private theorem uint64At_of_drop {buf rest : List UInt8} {pos : ℕ} {v : UInt64}
    (unread : buf.drop pos = uint64Bytes v ++ rest) : uint64At buf pos = v := by
  rw [uint64At, wordAt_of_drop unread (length_uint64Bytes v), ofNat_ofLeBytes_uint64Bytes]

private theorem int64At_of_drop {buf rest : List UInt8} {pos : ℕ} {v : Int64}
    (unread : buf.drop pos = int64Bytes v ++ rest) : int64At buf pos = v := by
  rw [int64At, uint64At_of_drop unread, Int64.toInt64_toUInt64]

/-- The bytes of a header decode to it, whatever follows them. -/
theorem decode_wire (header : MessageHeader) (rest : List UInt8) :
    decode (header.wire ++ rest) = .ok header := by
  set buf := header.wire ++ rest with bufDef
  have at4 : buf.drop 4 = header.wire.drop 4 ++ rest := rfl
  simp only [wire, List.cons_append, List.nil_append, List.drop_succ_cons, List.drop_zero,
    List.append_assoc] at at4
  have at8 := drop_next 8 at4 (by simp)
  have at12 := drop_next 12 at8 (by simp)
  have at16 := drop_next 16 at12 (by simp)
  have at24 := drop_next 24 at16 (by simp)
  have at32 := drop_next 32 at24 (by simp)
  have at40 := drop_next 40 at32 (by simp)
  have at48 := drop_next 48 at40 (by simp)
  have enough : ¬buf.length < headerSize := by
    rw [bufDef, List.length_append, length_wire]
    omega
  have version : buf.getD 0 0 = header.schemaVersion := rfl
  have kind : buf.getD 1 0 = header.messageType.toByte := rfl
  have venue : buf.getD 2 0 = header.venueId.toByte := rfl
  have market : buf.getD 3 0 = header.marketType.toByte := rfl
  simp only [decode, if_neg enough, version, kind, venue, market, MessageType.tryFrom_toByte,
    VenueId.tryFrom_toByte, MarketType.tryFrom_toByte, uint32At_of_drop at4, uint32At_of_drop at8,
    uint32At_of_drop at12, uint64At_of_drop at16, int64At_of_drop at24, int64At_of_drop at32,
    int64At_of_drop at40, int64At_of_drop at48]
  rfl

theorem decode_short {buf : List UInt8} (short : buf.length < headerSize) :
    decode buf = .error (.bufferTooShort headerSize buf.length) := by
  rw [decode, if_pos short]
  rfl

end MessageHeader

end TradingConnectivity.ConnectorCore
