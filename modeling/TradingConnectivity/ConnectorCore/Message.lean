import TradingConnectivity.ConnectorCore.Header

/-! # Normalized messages

The messages every connector publishes, each a header and a body. Bodies are written and read field
by field behind the header; the reader of a message checks that the header announces it.
-/

namespace TradingConnectivity.ConnectorCore

open Codec
open MarketData (PriceLevel BookStaleReason)

/-- The update id of a message that has none. -/
def updateIdNone : UInt64 := 0

def u16Max : ℕ := 65535

def u32Max : ℕ := 4294967295

/-! ## Fields -/

def tooShort (cursor : Cursor) (n : ℕ) : Error :=
  .bufferTooShort (cursor.pos + n) cursor.buf.length

namespace Encoder

def putU8 (v : UInt8) : BufWriter Error Unit := put tooShort [v]

def putBool (v : Bool) : BufWriter Error Unit := putU8 (if v then 1 else 0)

def putU16 (v : UInt16) : BufWriter Error Unit := put tooShort (uint16Bytes v)

def putU32 (v : UInt32) : BufWriter Error Unit := put tooShort (uint32Bytes v)

def putU64 (v : UInt64) : BufWriter Error Unit := put tooShort (uint64Bytes v)

def putI64 (v : Int64) : BufWriter Error Unit := put tooShort (int64Bytes v)

/-- A length in two bytes, then the string. -/
def putStr (s : String) : BufWriter Error Unit := do
  let b := strBytes s
  if b.length > u16Max then throw (.stringTooLong b.length u16Max)
  putU16 (UInt16.ofNat b.length)
  put tooShort b

def putLevel (lvl : PriceLevel) : BufWriter Error Unit := do
  putI64 lvl.price
  putI64 lvl.qty

/-- A count in four bytes, then the levels. -/
def putLevels (levels : List PriceLevel) : BufWriter Error Unit := do
  if levels.length > u32Max then throw (.vecTooLong levels.length u32Max)
  putU32 (UInt32.ofNat levels.length)
  levels.forM putLevel

end Encoder

namespace Decoder

def getU8 : Reader Error UInt8 := do
  let n ← readLe tooShort 1
  return UInt8.ofNat n

def getBool : Reader Error Bool := do
  let v ← getU8
  return decide (v ≠ 0)

def getU16 : Reader Error UInt16 := do
  let n ← readLe tooShort 2
  return UInt16.ofNat n

def getU32 : Reader Error UInt32 := do
  let n ← readLe tooShort 4
  return UInt32.ofNat n

def getU64 : Reader Error UInt64 := do
  let n ← readLe tooShort 8
  return UInt64.ofNat n

def getI64 : Reader Error Int64 := do
  let n ← readLe tooShort 8
  return (UInt64.ofNat n).toInt64

def getStr : Reader Error String := do
  let len ← getU16
  let bytes ← take tooShort len.toNat
  match ofStrBytes? bytes with
  | none => throw .invalidUtf8
  | some s => return s

def getLevel : Reader Error PriceLevel := do
  let price ← getI64
  let qty ← getI64
  return { price, qty }

def getLevels : Reader Error (List PriceLevel) := do
  let count ← getU32
  replicateM getLevel count.toNat

/-- One byte of an enumeration. -/
def getEnum {α : Type} (tryFrom : UInt8 → Except Error α) : Reader Error α := do
  match tryFrom (← getU8) with
  | .ok v => return v
  | .error e => throw e

end Decoder

/-! ## Header and body -/

/-- Encode the header into the front of a buffer and the body behind it; the length is reported. -/
def encodeWith (header : MessageHeader) (body : BufWriter Error Unit) (buf : List UInt8) :
    Except Error ℕ × List UInt8 :=
  match header.encodeInto buf with
  | (.error e, buf) => (.error e, buf)
  | (.ok (), buf) =>
    match body ⟨buf.drop headerSize, 0⟩ with
    | (.error e, enc) => (.error e, buf.take headerSize ++ enc.buf)
    | (.ok (), enc) => (.ok (headerSize + enc.pos), buf.take headerSize ++ enc.buf)

/-- Decode the header, check the type it announces and decode the body behind it. -/
def decodeWith {α : Type} (expected : MessageType) (body : MessageHeader → Reader Error α)
    (buf : List UInt8) : Except Error α := do
  let header ← MessageHeader.decode buf
  if header.messageType ≠ expected then
    throw (.messageTypeMismatch header.messageType expected)
  let (message, _) ← body header ⟨buf.drop headerSize, 0⟩
  return message

/-! ## Messages -/

open Encoder Decoder

/-- Instrument reference data; an actual price is the mantissa over ten to the `priceScale`. -/
structure InstrumentDefinition where
  header : MessageHeader
  symbol : String
  baseAsset : String
  quoteAsset : String
  priceScale : UInt32
  qtyScale : UInt32
  tickSize : Int64
  stepSize : Int64
  minQty : Int64
  minNotional : Int64
  contractSize : Int64
  isTrading : Bool
deriving DecidableEq, Repr

def InstrumentDefinition.encodeInto (m : InstrumentDefinition) :
    List UInt8 → Except Error ℕ × List UInt8 :=
  encodeWith m.header do
    putStr m.symbol
    putStr m.baseAsset
    putStr m.quoteAsset
    putU32 m.priceScale
    putU32 m.qtyScale
    putI64 m.tickSize
    putI64 m.stepSize
    putI64 m.minQty
    putI64 m.minNotional
    putI64 m.contractSize
    putBool m.isTrading

def InstrumentDefinition.decode : List UInt8 → Except Error InstrumentDefinition :=
  decodeWith .instrumentDefinition fun header => do
    let symbol ← getStr
    let baseAsset ← getStr
    let quoteAsset ← getStr
    let priceScale ← getU32
    let qtyScale ← getU32
    let tickSize ← getI64
    let stepSize ← getI64
    let minQty ← getI64
    let minNotional ← getI64
    let contractSize ← getI64
    let isTrading ← getBool
    return { header, symbol, baseAsset, quoteAsset, priceScale, qtyScale, tickSize, stepSize,
             minQty, minNotional, contractSize, isTrading }

structure TradingStatus where
  header : MessageHeader
  symbol : String
  isTrading : Bool
deriving DecidableEq, Repr

def TradingStatus.encodeInto (m : TradingStatus) : List UInt8 → Except Error ℕ × List UInt8 :=
  encodeWith m.header do
    putStr m.symbol
    putBool m.isTrading

def TradingStatus.decode : List UInt8 → Except Error TradingStatus :=
  decodeWith .tradingStatus fun header => do
    let symbol ← getStr
    let isTrading ← getBool
    return { header, symbol, isTrading }

/-- Full depth snapshot. -/
structure BookSnapshot where
  header : MessageHeader
  symbol : String
  priceScale : UInt8
  qtyScale : UInt8
  updateId : UInt64
  bids : List PriceLevel
  asks : List PriceLevel
deriving DecidableEq, Repr

def BookSnapshot.encodeInto (m : BookSnapshot) : List UInt8 → Except Error ℕ × List UInt8 :=
  encodeWith m.header do
    putStr m.symbol
    putU8 m.priceScale
    putU8 m.qtyScale
    putU64 m.updateId
    putLevels m.bids
    putLevels m.asks

def BookSnapshot.decode : List UInt8 → Except Error BookSnapshot :=
  decodeWith .bookSnapshot fun header => do
    let symbol ← getStr
    let priceScale ← getU8
    let qtyScale ← getU8
    let updateId ← getU64
    let bids ← getLevels
    let asks ← getLevels
    return { header, symbol, priceScale, qtyScale, updateId, bids, asks }

/-- Incremental book update. -/
structure BookDelta where
  header : MessageHeader
  symbol : String
  priceScale : UInt8
  qtyScale : UInt8
  firstUpdateId : UInt64
  finalUpdateId : UInt64
  /-- `updateIdNone` when the exchange does not send it. -/
  prevUpdateId : UInt64
  bids : List PriceLevel
  asks : List PriceLevel
deriving DecidableEq, Repr

def BookDelta.encodeInto (m : BookDelta) : List UInt8 → Except Error ℕ × List UInt8 :=
  encodeWith m.header do
    putStr m.symbol
    putU8 m.priceScale
    putU8 m.qtyScale
    putU64 m.firstUpdateId
    putU64 m.finalUpdateId
    putU64 m.prevUpdateId
    putLevels m.bids
    putLevels m.asks

def BookDelta.decode : List UInt8 → Except Error BookDelta :=
  decodeWith .bookDelta fun header => do
    let symbol ← getStr
    let priceScale ← getU8
    let qtyScale ← getU8
    let firstUpdateId ← getU64
    let finalUpdateId ← getU64
    let prevUpdateId ← getU64
    let bids ← getLevels
    let asks ← getLevels
    return { header, symbol, priceScale, qtyScale, firstUpdateId, finalUpdateId, prevUpdateId,
             bids, asks }

structure BestBidOffer where
  header : MessageHeader
  symbol : String
  priceScale : UInt8
  qtyScale : UInt8
  bidPrice : Int64
  bidQty : Int64
  askPrice : Int64
  askQty : Int64
  updateId : UInt64
deriving DecidableEq, Repr

def BestBidOffer.encodeInto (m : BestBidOffer) : List UInt8 → Except Error ℕ × List UInt8 :=
  encodeWith m.header do
    putStr m.symbol
    putU8 m.priceScale
    putU8 m.qtyScale
    putI64 m.bidPrice
    putI64 m.bidQty
    putI64 m.askPrice
    putI64 m.askQty
    putU64 m.updateId

def BestBidOffer.decode : List UInt8 → Except Error BestBidOffer :=
  decodeWith .bestBidOffer fun header => do
    let symbol ← getStr
    let priceScale ← getU8
    let qtyScale ← getU8
    let bidPrice ← getI64
    let bidQty ← getI64
    let askPrice ← getI64
    let askQty ← getI64
    let updateId ← getU64
    return { header, symbol, priceScale, qtyScale, bidPrice, bidQty, askPrice, askQty, updateId }

structure Trade where
  header : MessageHeader
  symbol : String
  priceScale : UInt8
  qtyScale : UInt8
  tradeId : UInt64
  price : Int64
  qty : Int64
  tradeTs : Int64
  isBuyerMaker : Bool
  aggressorSide : AggressorSide
deriving DecidableEq, Repr

def Trade.encodeInto (m : Trade) : List UInt8 → Except Error ℕ × List UInt8 :=
  encodeWith m.header do
    putStr m.symbol
    putU8 m.priceScale
    putU8 m.qtyScale
    putU64 m.tradeId
    putI64 m.price
    putI64 m.qty
    putI64 m.tradeTs
    putBool m.isBuyerMaker
    putU8 m.aggressorSide.toByte

def Trade.decode : List UInt8 → Except Error Trade :=
  decodeWith .trade fun header => do
    let symbol ← getStr
    let priceScale ← getU8
    let qtyScale ← getU8
    let tradeId ← getU64
    let price ← getI64
    let qty ← getI64
    let tradeTs ← getI64
    let isBuyerMaker ← getBool
    let aggressorSide ← getEnum AggressorSide.tryFrom
    return { header, symbol, priceScale, qtyScale, tradeId, price, qty, tradeTs, isBuyerMaker,
             aggressorSide }

/-- Mark and index price of a futures symbol. -/
structure MarkPrice where
  header : MessageHeader
  symbol : String
  priceScale : UInt8
  markPrice : Int64
  indexPrice : Int64
deriving DecidableEq, Repr

def MarkPrice.encodeInto (m : MarkPrice) : List UInt8 → Except Error ℕ × List UInt8 :=
  encodeWith m.header do
    putStr m.symbol
    putU8 m.priceScale
    putI64 m.markPrice
    putI64 m.indexPrice

def MarkPrice.decode : List UInt8 → Except Error MarkPrice :=
  decodeWith .markPrice fun header => do
    let symbol ← getStr
    let priceScale ← getU8
    let markPrice ← getI64
    let indexPrice ← getI64
    return { header, symbol, priceScale, markPrice, indexPrice }

/-- Funding rate of a futures symbol, scaled by ten to the `fundingRateScale`. -/
structure FundingRate where
  header : MessageHeader
  symbol : String
  fundingRateScale : UInt8
  fundingRate : Int64
  nextFundingTime : Int64
deriving DecidableEq, Repr

def FundingRate.encodeInto (m : FundingRate) : List UInt8 → Except Error ℕ × List UInt8 :=
  encodeWith m.header do
    putStr m.symbol
    putU8 m.fundingRateScale
    putI64 m.fundingRate
    putI64 m.nextFundingTime

def FundingRate.decode : List UInt8 → Except Error FundingRate :=
  decodeWith .fundingRate fun header => do
    let symbol ← getStr
    let fundingRateScale ← getU8
    let fundingRate ← getI64
    let nextFundingTime ← getI64
    return { header, symbol, fundingRateScale, fundingRate, nextFundingTime }

structure Liquidation where
  header : MessageHeader
  symbol : String
  priceScale : UInt8
  qtyScale : UInt8
  side : AggressorSide
  price : Int64
  qty : Int64
  avgPrice : Int64
  lastFilledQty : Int64
deriving DecidableEq, Repr

def Liquidation.encodeInto (m : Liquidation) : List UInt8 → Except Error ℕ × List UInt8 :=
  encodeWith m.header do
    putStr m.symbol
    putU8 m.priceScale
    putU8 m.qtyScale
    putU8 m.side.toByte
    putI64 m.price
    putI64 m.qty
    putI64 m.avgPrice
    putI64 m.lastFilledQty

def Liquidation.decode : List UInt8 → Except Error Liquidation :=
  decodeWith .liquidation fun header => do
    let symbol ← getStr
    let priceScale ← getU8
    let qtyScale ← getU8
    let side ← getEnum AggressorSide.tryFrom
    let price ← getI64
    let qty ← getI64
    let avgPrice ← getI64
    let lastFilledQty ← getI64
    return { header, symbol, priceScale, qtyScale, side, price, qty, avgPrice, lastFilledQty }

structure OpenInterest where
  header : MessageHeader
  symbol : String
  qtyScale : UInt8
  openInterest : Int64
deriving DecidableEq, Repr

def OpenInterest.encodeInto (m : OpenInterest) : List UInt8 → Except Error ℕ × List UInt8 :=
  encodeWith m.header do
    putStr m.symbol
    putU8 m.qtyScale
    putI64 m.openInterest

def OpenInterest.decode : List UInt8 → Except Error OpenInterest :=
  decodeWith .openInterest fun header => do
    let symbol ← getStr
    let qtyScale ← getU8
    let openInterest ← getI64
    return { header, symbol, qtyScale, openInterest }

/-- Keepalive signal without a body. -/
structure Heartbeat where
  header : MessageHeader
deriving DecidableEq, Repr

def Heartbeat.encodeInto (m : Heartbeat) : List UInt8 → Except Error ℕ × List UInt8 :=
  encodeWith m.header (pure ())

def Heartbeat.decode : List UInt8 → Except Error Heartbeat :=
  decodeWith .heartbeat fun header => return { header }

structure FeedStatus where
  header : MessageHeader
  state : FeedState
deriving DecidableEq, Repr

def FeedStatus.encodeInto (m : FeedStatus) : List UInt8 → Except Error ℕ × List UInt8 :=
  encodeWith m.header (putU8 m.state.toByte)

def FeedStatus.decode : List UInt8 → Except Error FeedStatus :=
  decodeWith .feedStatus fun header => do
    let state ← getEnum FeedState.tryFrom
    return { header, state }

structure GapDetected where
  header : MessageHeader
  symbol : String
  expectedUpdateId : UInt64
  receivedUpdateId : UInt64
deriving DecidableEq, Repr

def GapDetected.encodeInto (m : GapDetected) : List UInt8 → Except Error ℕ × List UInt8 :=
  encodeWith m.header do
    putStr m.symbol
    putU64 m.expectedUpdateId
    putU64 m.receivedUpdateId

def GapDetected.decode : List UInt8 → Except Error GapDetected :=
  decodeWith .gapDetected fun header => do
    let symbol ← getStr
    let expectedUpdateId ← getU64
    let receivedUpdateId ← getU64
    return { header, symbol, expectedUpdateId, receivedUpdateId }

structure BookStale where
  header : MessageHeader
  symbol : String
  reason : BookStaleReason
deriving DecidableEq, Repr

def BookStale.encodeInto (m : BookStale) : List UInt8 → Except Error ℕ × List UInt8 :=
  encodeWith m.header do
    putStr m.symbol
    putU8 (staleReasonByte m.reason)

def BookStale.decode : List UInt8 → Except Error BookStale :=
  decodeWith .bookStale fun header => do
    let symbol ← getStr
    let reason ← getEnum staleReasonTryFrom
    return { header, symbol, reason }

structure BookRecovered where
  header : MessageHeader
  symbol : String
  snapshotUpdateId : UInt64
deriving DecidableEq, Repr

def BookRecovered.encodeInto (m : BookRecovered) : List UInt8 → Except Error ℕ × List UInt8 :=
  encodeWith m.header do
    putStr m.symbol
    putU64 m.snapshotUpdateId

def BookRecovered.decode : List UInt8 → Except Error BookRecovered :=
  decodeWith .bookRecovered fun header => do
    let symbol ← getStr
    let snapshotUpdateId ← getU64
    return { header, symbol, snapshotUpdateId }

structure AccountUpdate where
  header : MessageHeader
deriving DecidableEq, Repr

def AccountUpdate.encodeInto (m : AccountUpdate) : List UInt8 → Except Error ℕ × List UInt8 :=
  encodeWith m.header (pure ())

def AccountUpdate.decode : List UInt8 → Except Error AccountUpdate :=
  decodeWith .accountUpdate fun header => return { header }

structure OrderUpdate where
  header : MessageHeader
deriving DecidableEq, Repr

def OrderUpdate.encodeInto (m : OrderUpdate) : List UInt8 → Except Error ℕ × List UInt8 :=
  encodeWith m.header (pure ())

def OrderUpdate.decode : List UInt8 → Except Error OrderUpdate :=
  decodeWith .orderUpdate fun header => return { header }

/-- A fingerprint of a book, published to the status stream. -/
structure BookChecksum where
  header : MessageHeader
  symbol : String
  updateId : UInt64
  bidDepth : UInt32
  askDepth : UInt32
  checksum : UInt64
deriving DecidableEq, Repr

def BookChecksum.encodeInto (m : BookChecksum) : List UInt8 → Except Error ℕ × List UInt8 :=
  encodeWith m.header do
    putStr m.symbol
    putU64 m.updateId
    putU32 m.bidDepth
    putU32 m.askDepth
    putU64 m.checksum

def BookChecksum.decode : List UInt8 → Except Error BookChecksum :=
  decodeWith .bookChecksum fun header => do
    let symbol ← getStr
    let updateId ← getU64
    let bidDepth ← getU32
    let askDepth ← getU32
    let checksum ← getU64
    return { header, symbol, updateId, bidDepth, askDepth, checksum }

/-! ## The sum type -/

inductive NormalizedMessage
  | instrumentDefinition (m : InstrumentDefinition)
  | tradingStatus (m : TradingStatus)
  | bookSnapshot (m : BookSnapshot)
  | bookDelta (m : BookDelta)
  | bestBidOffer (m : BestBidOffer)
  | trade (m : Trade)
  | markPrice (m : MarkPrice)
  | fundingRate (m : FundingRate)
  | liquidation (m : Liquidation)
  | openInterest (m : OpenInterest)
  | accountUpdate (m : AccountUpdate)
  | orderUpdate (m : OrderUpdate)
  | heartbeat (m : Heartbeat)
  | feedStatus (m : FeedStatus)
  | gapDetected (m : GapDetected)
  | bookStale (m : BookStale)
  | bookRecovered (m : BookRecovered)
deriving DecidableEq, Repr

namespace NormalizedMessage

def fromBytes (buf : List UInt8) : Except Error NormalizedMessage := do
  let header ← MessageHeader.decode buf
  match header.messageType with
  | .instrumentDefinition => return .instrumentDefinition (← InstrumentDefinition.decode buf)
  | .tradingStatus => return .tradingStatus (← TradingStatus.decode buf)
  | .bookSnapshot => return .bookSnapshot (← BookSnapshot.decode buf)
  | .bookDelta => return .bookDelta (← BookDelta.decode buf)
  | .bestBidOffer => return .bestBidOffer (← BestBidOffer.decode buf)
  | .trade => return .trade (← Trade.decode buf)
  | .markPrice => return .markPrice (← MarkPrice.decode buf)
  | .fundingRate => return .fundingRate (← FundingRate.decode buf)
  | .liquidation => return .liquidation (← Liquidation.decode buf)
  | .openInterest => return .openInterest (← OpenInterest.decode buf)
  | .accountUpdate => return .accountUpdate (← AccountUpdate.decode buf)
  | .orderUpdate => return .orderUpdate (← OrderUpdate.decode buf)
  | .heartbeat => return .heartbeat (← Heartbeat.decode buf)
  | .feedStatus => return .feedStatus (← FeedStatus.decode buf)
  | .gapDetected => return .gapDetected (← GapDetected.decode buf)
  | .bookStale => return .bookStale (← BookStale.decode buf)
  | .bookRecovered => return .bookRecovered (← BookRecovered.decode buf)
  -- a message of the status stream, decoded on its own
  | .bookChecksum => throw (.unknownMessageType MessageType.bookChecksum.toByte)

def encodeInto : NormalizedMessage → List UInt8 → Except Error ℕ × List UInt8
  | instrumentDefinition m => m.encodeInto
  | tradingStatus m => m.encodeInto
  | bookSnapshot m => m.encodeInto
  | bookDelta m => m.encodeInto
  | bestBidOffer m => m.encodeInto
  | trade m => m.encodeInto
  | markPrice m => m.encodeInto
  | fundingRate m => m.encodeInto
  | liquidation m => m.encodeInto
  | openInterest m => m.encodeInto
  | accountUpdate m => m.encodeInto
  | orderUpdate m => m.encodeInto
  | heartbeat m => m.encodeInto
  | feedStatus m => m.encodeInto
  | gapDetected m => m.encodeInto
  | bookStale m => m.encodeInto
  | bookRecovered m => m.encodeInto

def header : NormalizedMessage → MessageHeader
  | instrumentDefinition m => m.header
  | tradingStatus m => m.header
  | bookSnapshot m => m.header
  | bookDelta m => m.header
  | bestBidOffer m => m.header
  | trade m => m.header
  | markPrice m => m.header
  | fundingRate m => m.header
  | liquidation m => m.header
  | openInterest m => m.header
  | accountUpdate m => m.header
  | orderUpdate m => m.header
  | heartbeat m => m.header
  | feedStatus m => m.header
  | gapDetected m => m.header
  | bookStale m => m.header
  | bookRecovered m => m.header

end NormalizedMessage

end TradingConnectivity.ConnectorCore
