import TradingConnectivity.ConnectorCore.Encoding
import TradingConnectivity.MarketData.OrderBook
import TradingConnectivity.Publisher.Backpressure

/-! # The checksum publisher

After an update of its book an instance encodes a checksum message into a buffer of fixed size and
offers it to the status stream. The buffer is small: encoding fails on symbols that are much shorter
than a length prefix allows (`publish_long`).
-/

namespace TradingConnectivity.Redundancy

open Codec ConnectorCore
open MarketData (OrderBook)
open Publisher (OfferResult)

section Codec

variable {m : BookChecksum} {buf encoded : List UInt8} {len : ℕ}

/-- A checksum message is transmitted, in as many bytes as its symbol and its numbers take. -/
theorem checksum_transmits (announced : m.header.messageType = .bookChecksum)
    (fits : m.symbol.utf8ByteSize ≤ u16Max) :
    ∃ bytes, Transmits m.header m.encodeInto BookChecksum.decode m bytes ∧
      bytes.length = headerSize + (26 + m.symbol.utf8ByteSize) := by
  have mirrored : ∃ bytes, Transmits m.header m.encodeInto BookChecksum.decode m bytes :=
    transmits_with announced ((mirrors_putStr fits).bind ((mirrors_putU64 _).bind
      ((mirrors_putU32 _).bind ((mirrors_putU32 _).bind ((mirrors_putU64 _).map _)))))
  obtain ⟨bytes, transmits⟩ := mirrored
  have size := length_of_body (transmits : Transmits m.header (encodeWith m.header _) _ m bytes)
    ((Encoder.writes_putStr fits).bind ((writes_put _ (uint64Bytes m.updateId)).bind
      ((writes_put _ (uint32Bytes m.bidDepth)).bind ((writes_put _ (uint32Bytes m.askDepth)).bind
        (writes_put _ (uint64Bytes m.checksum))))))
  refine ⟨bytes, transmits, ?_⟩
  simp at size
  omega

private theorem checksum_local (m : BookChecksum) :
    ∃ body, m.encodeInto = encodeWith m.header body ∧ Local body :=
  ⟨_, rfl, (Encoder.local_putStr _).bind fun _ => (Local.put _ _).bind fun _ =>
    (Local.put _ _).bind fun _ => (Local.put _ _).bind fun _ => .put _ _⟩

/-- A symbol that does not fit its length prefix is refused. -/
private theorem checksum_refused (long : u16Max < m.symbol.utf8ByteSize) (buf : List UInt8) :
    ∃ e, (m.encodeInto buf).1 = .error e := by
  have refuses (cursor : Cursor) : Encoder.putStr m.symbol cursor =
      (.error (.stringTooLong m.symbol.utf8ByteSize u16Max), cursor) := by
    simp only [Encoder.putStr, if_pos (show (strBytes m.symbol).length > u16Max from long)]
    rfl
  rw [BookChecksum.encodeInto, encodeWith]
  split
  · exact ⟨_, rfl⟩
  · rw [BufWriter.bind_of_error _ (refuses _)]
    exact ⟨_, rfl⟩

/-- A checksum message is encoded exactly if the buffer has room for it and its symbol has a length
prefix; then the bytes decode to it. -/
theorem checksum_encodes (announced : m.header.messageType = .bookChecksum) (buf : List UInt8) :
    (∃ n, (m.encodeInto buf).1 = .ok n ∧ m.symbol.utf8ByteSize ≤ u16Max ∧
      headerSize + (26 + m.symbol.utf8ByteSize) ≤ buf.length ∧
      BookChecksum.decode ((m.encodeInto buf).2.take n) = .ok m) ∨
    (∃ e, (m.encodeInto buf).1 = .error e) ∧
      (u16Max < m.symbol.utf8ByteSize ∨
        buf.length < headerSize + (26 + m.symbol.utf8ByteSize)) := by
  by_cases fits : m.symbol.utf8ByteSize ≤ u16Max
  · obtain ⟨bytes, transmits, size⟩ := checksum_transmits announced fits
    obtain ⟨body, own, here⟩ := checksum_local m
    cases ran : m.encodeInto buf with | mk result encoded =>
    cases result with
    | ok n =>
      rw [own] at ran transmits
      obtain ⟨rfl, room, rfl⟩ := encodeWith_eq here transmits ran
      have decodes := transmits.decodes []
      rw [List.append_nil] at decodes
      refine .inl ⟨bytes.length, rfl, fits, size ▸ room, ?_⟩
      rwa [List.take_left]
    | error e =>
      refine .inr ⟨⟨e, rfl⟩, .inr ?_⟩
      by_contra room
      rw [transmits.encodes buf (by omega)] at ran
      cases ran
  · have long := Nat.not_le.mp fits
    exact .inr ⟨checksum_refused long buf, .inl long⟩

end Codec

/-- The size of the buffer of a checksum publisher. -/
def maxChecksumMsgBytes : ℕ := 256

/-- The longest symbol that leaves room for the numbers of a message. -/
def maxSymbolBytes : ℕ := maxChecksumMsgBytes - (headerSize + 26)

/-- The message of a book; whatever type the given header has is replaced. -/
def checksumMessage (symbol : String) (book : OrderBook) (header : MessageHeader) :
    BookChecksum where
  header := { header with messageType := .bookChecksum }
  symbol := symbol
  updateId := book.lastUpdateId
  bidDepth := .ofNat book.bids.size
  askDepth := .ofNat book.asks.size
  checksum := book.checksum

/-- The buffer keeps its size. -/
structure ChecksumPublisher where
  buf : { bytes : List UInt8 // bytes.length = maxChecksumMsgBytes }
  published : UInt64
  failed : UInt64

namespace ChecksumPublisher

def new : ChecksumPublisher := ⟨⟨List.replicate maxChecksumMsgBytes 0, List.length_replicate⟩, 0, 0⟩

/-- Encode the checksum of a book and offer it; `offered` is what the publication answers. The
result comes with the bytes that the publication accepted. -/
def publish (publisher : ChecksumPublisher) (symbol : String) (book : OrderBook)
    (header : MessageHeader) (offered : OfferResult) :
    (OfferResult × Option (List UInt8)) × ChecksumPublisher :=
  let encoded := (checksumMessage symbol book header).encodeInto publisher.buf
  let buf := ⟨encoded.2, by
    obtain ⟨body, own, here⟩ := checksum_local (checksumMessage symbol book header)
    exact (congrArg (·.2.length) (congrFun own _)).trans
      ((length_encodeWith here _ _).trans publisher.buf.property)⟩
  match encoded.1 with
  | .error _ => ((.closed, none), { publisher with buf, failed := publisher.failed + 1 })
  | .ok n =>
    match offered with
    | .ok position => ((.ok position, some (encoded.2.take n)),
        { publisher with buf, published := publisher.published + 1 })
    | other => ((other, none), { publisher with buf, failed := publisher.failed + 1 })

section publish

variable (publisher : ChecksumPublisher) {symbol : String} (book : OrderBook)
  (header : MessageHeader) (offered : OfferResult)

/-- The message of a symbol that fits the buffer is transmitted if the publication accepts it. -/
theorem publish_fitting (fits : symbol.utf8ByteSize ≤ maxSymbolBytes) :
    ∃ bytes, BookChecksum.decode bytes = .ok (checksumMessage symbol book header) ∧
      (publisher.publish symbol book header offered).1 =
        (offered, if offered.isOk then some bytes else none) := by
  have announced : (checksumMessage symbol book header).header.messageType = .bookChecksum := rfl
  rcases checksum_encodes announced publisher.buf with ⟨n, ran, -, -, decodes⟩ | ⟨-, long⟩
  · refine ⟨_, decodes, ?_⟩
    rw [publish]
    simp only [ran]
    cases offered <;> rfl
  · rw [publisher.buf.property] at long
    have limits : maxSymbolBytes ≤ u16Max ∧
        headerSize + (26 + maxSymbolBytes) ≤ maxChecksumMsgBytes := by decide
    have named : (checksumMessage symbol book header).symbol.utf8ByteSize =
      symbol.utf8ByteSize := rfl
    omega

/-- A symbol that does not fit the buffer is answered like a closed publication. -/
theorem publish_long (long : maxSymbolBytes < symbol.utf8ByteSize) :
    (publisher.publish symbol book header offered).1 = (.closed, none) := by
  have announced : (checksumMessage symbol book header).header.messageType = .bookChecksum := rfl
  rcases checksum_encodes announced publisher.buf with ⟨n, -, -, room, -⟩ | ⟨⟨e, ran⟩, -⟩
  · rw [publisher.buf.property] at room
    have limit : maxChecksumMsgBytes = headerSize + (26 + maxSymbolBytes) := by decide
    have named : (checksumMessage symbol book header).symbol.utf8ByteSize =
      symbol.utf8ByteSize := rfl
    omega
  · rw [publish]
    simp only [ran]

end publish

end ChecksumPublisher

end TradingConnectivity.Redundancy
