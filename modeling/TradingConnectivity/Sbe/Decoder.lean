import TradingConnectivity.Codec.Format
import TradingConnectivity.Normalize.Sbe

/-! # Decoding SBE frames

A frame is a header, a root block of fixed fields, for the depth messages two groups of levels, and
the symbol. The header and each group announce how long a block is; the reader takes the fields it
knows and skips to the announced end, unless it has already passed it.
-/

namespace TradingConnectivity.Sbe

open Codec
open Normalize.Sbe (Decimal64 AggressorSide DepthLevel)

inductive SbeError
  | bufferTooShort (needed size : ℕ)
  | schemaMismatch (expected actual : UInt16)
  | versionTooNew (max actual : UInt16)
  | unknownTemplateId (id : UInt16)
  | invalidUtf8
deriving DecidableEq, Repr

/-! ## Header -/

def spotSchemaId : UInt16 := 3

def spotSchemaVersionMax : UInt16 := 2

def sbeHeaderSize : ℕ := 8

structure SbeHeader where
  /-- The length of the root block. -/
  blockLength : UInt16
  templateId : UInt16
  schemaId : UInt16
  version : UInt16
deriving DecidableEq, Repr

def uint16At (buf : List UInt8) (offset : ℕ) : UInt16 :=
  UInt16.ofNat (ConnectorCore.wordAt buf offset 2)

namespace SbeHeader

def decode (buf : List UInt8) : Except SbeError SbeHeader :=
  if buf.length < sbeHeaderSize then .error (.bufferTooShort sbeHeaderSize buf.length)
  else .ok {
    blockLength := uint16At buf 0
    templateId := uint16At buf 2
    schemaId := uint16At buf 4
    version := uint16At buf 6 }

def validateSchema (hdr : SbeHeader) : Except SbeError Unit := do
  if hdr.schemaId ≠ spotSchemaId then throw (.schemaMismatch spotSchemaId hdr.schemaId)
  if hdr.version > spotSchemaVersionMax then
    throw (.versionTooNew spotSchemaVersionMax hdr.version)

end SbeHeader

inductive TemplateId
  | tradesStream
  | bestBidAsk
  | depthSnapshot
  | depthDiff
deriving DecidableEq, Repr

namespace TemplateId

def fromU16 (id : UInt16) : Except SbeError TemplateId :=
  if id = 0 then .ok .tradesStream
  else if id = 1 then .ok .bestBidAsk
  else if id = 2 then .ok .depthSnapshot
  else if id = 3 then .ok .depthDiff
  else .error (.unknownTemplateId id)

def asU16 : TemplateId → UInt16
  | tradesStream => 0
  | bestBidAsk => 1
  | depthSnapshot => 2
  | depthDiff => 3

end TemplateId

/-- Any other value than those of the schema counts as unknown. -/
def aggressorFromU8 (v : UInt8) : AggressorSide :=
  if v = 0 then .sell else if v = 1 then .buy else .unknown

def aggressorAsU8 : AggressorSide → UInt8
  | .sell => 0
  | .buy => 1
  | .unknown => 255

/-! ## Messages -/

/-- A trade, with the fields that are not normalized. -/
structure TradeEvent extends Normalize.Sbe.TradeEvent where
  buyerOrderId : Int64
  sellerOrderId : Int64
  symbol : String
deriving DecidableEq, Repr

structure BboEvent extends Normalize.Sbe.BboEvent where
  transactTime : Int64
  symbol : String
deriving DecidableEq, Repr

structure DepthSnapshotEvent where
  eventTime : Int64
  lastUpdateId : Int64
  symbol : String
  bids : List DepthLevel
  asks : List DepthLevel
deriving DecidableEq, Repr

structure DepthDiffEvent extends Normalize.Sbe.DepthDiffEvent where
  transactTime : Int64
  symbol : String
deriving DecidableEq, Repr

inductive SbeMessage
  | trade (ev : TradeEvent)
  | bbo (ev : BboEvent)
  | depthSnapshot (ev : DepthSnapshotEvent)
  | depthDiff (ev : DepthDiffEvent)
deriving DecidableEq, Repr

/-! ## Cursor -/

def tooShort (cursor : Cursor) (n : ℕ) : SbeError :=
  .bufferTooShort (cursor.pos + n) cursor.buf.length

def readU8 : Reader SbeError UInt8 := do
  let n ← readLe tooShort 1
  return UInt8.ofNat n

def readU16Le : Reader SbeError UInt16 := do
  let n ← readLe tooShort 2
  return UInt16.ofNat n

def readI64Le : Reader SbeError Int64 := do
  let n ← readLe tooShort 8
  return (UInt64.ofNat n).toInt64

def readDecimal64 : Reader SbeError Decimal64 := do
  let mantissa ← readI64Le
  return { mantissa }

/-- Advance to a position; a position that is already passed stays passed. -/
def skipTo (target : ℕ) : Reader SbeError Unit := do
  let cursor ← get
  if target ≤ cursor.pos then return ()
  else
    need tooShort (target - cursor.pos)
    set { cursor with pos := target }

/-- The length of an entry and the number of entries. -/
def readGroupHeader : Reader SbeError (UInt16 × UInt8) := do
  let blockLen ← readU16Le
  let count ← readU8
  return (blockLen, count)

/-- A length in two bytes, then the string. -/
def readVarString : Reader SbeError String := do
  let len ← readU16Le
  let bytes ← take tooShort len.toNat
  match ofStrBytes? bytes with
  | none => throw .invalidUtf8
  | some s => return s

/-- One entry of a group of levels, with what follows its known fields. -/
def readDepthLevel (entryBlockLen : UInt16) : Reader SbeError DepthLevel := do
  let cursor ← get
  let entryStart := cursor.pos
  let price ← readDecimal64
  let quantity ← readDecimal64
  skipTo (entryStart + entryBlockLen.toNat)
  return { price, quantity }

def readDepthLevels (entryBlockLen : UInt16) (count : UInt8) : Reader SbeError (List DepthLevel) :=
  replicateM (readDepthLevel entryBlockLen) count.toNat

/-! ## Bodies -/

def decodeTradeBody (hdr : SbeHeader) : Reader SbeError TradeEvent := do
  let eventTime ← readI64Le
  let transactTime ← readI64Le
  let tradeId ← readI64Le
  let price ← readDecimal64
  let quantity ← readDecimal64
  let buyerOrderId ← readI64Le
  let sellerOrderId ← readI64Le
  let aggressor ← readU8
  let maker ← readU8
  skipTo (sbeHeaderSize + hdr.blockLength.toNat)
  let symbol ← readVarString
  return {
    eventTime, transactTime, tradeId, price, quantity, buyerOrderId, sellerOrderId
    aggressorSide := aggressorFromU8 aggressor
    isBuyerMarketMaker := maker ≠ 0
    symbol }

def decodeBboBody (hdr : SbeHeader) : Reader SbeError BboEvent := do
  let eventTime ← readI64Le
  let transactTime ← readI64Le
  let bestBidPrice ← readDecimal64
  let bestBidQty ← readDecimal64
  let bestAskPrice ← readDecimal64
  let bestAskQty ← readDecimal64
  skipTo (sbeHeaderSize + hdr.blockLength.toNat)
  let symbol ← readVarString
  return {
    eventTime, transactTime, bestBidPrice, bestBidQty, bestAskPrice, bestAskQty, symbol }

def decodeDepthSnapshotBody (hdr : SbeHeader) : Reader SbeError DepthSnapshotEvent := do
  let eventTime ← readI64Le
  let lastUpdateId ← readI64Le
  skipTo (sbeHeaderSize + hdr.blockLength.toNat)
  let (bidEntryLen, bidCount) ← readGroupHeader
  let bids ← readDepthLevels bidEntryLen bidCount
  let (askEntryLen, askCount) ← readGroupHeader
  let asks ← readDepthLevels askEntryLen askCount
  let symbol ← readVarString
  return { eventTime, lastUpdateId, symbol, bids, asks }

def decodeDepthDiffBody (hdr : SbeHeader) : Reader SbeError DepthDiffEvent := do
  let eventTime ← readI64Le
  let transactTime ← readI64Le
  let firstUpdateId ← readI64Le
  let finalUpdateId ← readI64Le
  let prevFinalUpdateId ← readI64Le
  skipTo (sbeHeaderSize + hdr.blockLength.toNat)
  let (bidEntryLen, bidCount) ← readGroupHeader
  let bids ← readDepthLevels bidEntryLen bidCount
  let (askEntryLen, askCount) ← readGroupHeader
  let asks ← readDepthLevels askEntryLen askCount
  let symbol ← readVarString
  return {
    eventTime, transactTime, firstUpdateId, finalUpdateId, prevFinalUpdateId, symbol, bids, asks }

/-! ## Frames -/

/-- The body of a template, read behind the header. -/
def decodeBody (hdr : SbeHeader) : TemplateId → Reader SbeError SbeMessage
  | .tradesStream => do
    let ev ← decodeTradeBody hdr
    return .trade ev
  | .bestBidAsk => do
    let ev ← decodeBboBody hdr
    return .bbo ev
  | .depthSnapshot => do
    let ev ← decodeDepthSnapshotBody hdr
    return .depthSnapshot ev
  | .depthDiff => do
    let ev ← decodeDepthDiffBody hdr
    return .depthDiff ev

/-- Decode a complete frame, with a check of the schema and its version. -/
def decodeMessage (buf : List UInt8) : Except SbeError SbeMessage := do
  let hdr ← SbeHeader.decode buf
  hdr.validateSchema
  let template ← TemplateId.fromU16 hdr.templateId
  let (message, _) ← decodeBody hdr template ⟨buf, sbeHeaderSize⟩
  return message

end TradingConnectivity.Sbe
