import TradingConnectivity.Bridge.Rescale
import TradingConnectivity.ConnectorCore.Encoding

/-! # Rows of the tables

Each kind of market data has a table, and a message is a row of the table of its kind, with its
prices and quantities at eight decimals. A conversion panics when one of them does. The messages
about the stream itself have no table.
-/

namespace TradingConnectivity.Bridge

open ConnectorCore
open MarketData (PriceLevel)

/-- The columns that begin the rows of market data. -/
structure Origin where
  exchangeEventTs : Int64
  localRecvTs : Int64
  localPublishTs : Int64
  venueId : UInt8
  marketType : UInt8
  instrumentId : UInt32
  symbol : String
  sequenceNumber : UInt64
deriving DecidableEq

def Origin.of (header : MessageHeader) (symbol : String) : Origin where
  exchangeEventTs := header.exchangeEventTs
  localRecvTs := header.localRecvTs
  localPublishTs := header.localPublishTs
  venueId := header.venueId.toByte
  marketType := header.marketType.toByte
  instrumentId := header.instrumentId
  symbol := symbol
  sequenceNumber := header.sequenceNumber

structure TradeRow where
  origin : Origin
  tradeId : UInt64
  price : Int64
  qty : Int64
  tradeTs : Int64
  isBuyerMaker : UInt8
  aggressorSide : UInt8
deriving DecidableEq

def TradeRow.from (m : Trade) : Option TradeRow := do
  return {
    origin := .of m.header m.symbol
    tradeId := m.tradeId
    price := ← toD8 m.price m.priceScale
    qty := ← toD8 m.qty m.qtyScale
    tradeTs := m.tradeTs
    isBuyerMaker := m.isBuyerMaker.toUInt8
    aggressorSide := m.aggressorSide.toByte }

structure BboRow where
  origin : Origin
  bidPrice : Int64
  bidQty : Int64
  askPrice : Int64
  askQty : Int64
  updateId : UInt64
deriving DecidableEq

def BboRow.from (m : BestBidOffer) : Option BboRow := do
  return {
    origin := .of m.header m.symbol
    bidPrice := ← toD8 m.bidPrice m.priceScale
    bidQty := ← toD8 m.bidQty m.qtyScale
    askPrice := ← toD8 m.askPrice m.priceScale
    askQty := ← toD8 m.askQty m.qtyScale
    updateId := m.updateId }

structure MarkPriceRow where
  origin : Origin
  markPrice : Int64
  indexPrice : Int64
deriving DecidableEq

def MarkPriceRow.from (m : MarkPrice) : Option MarkPriceRow := do
  return {
    origin := .of m.header m.symbol
    markPrice := ← toD8 m.markPrice m.priceScale
    indexPrice := ← toD8 m.indexPrice m.priceScale }

/-- The funding rate has nine decimals in its message and in its table. -/
structure FundingRateRow where
  origin : Origin
  fundingRate : Int64
  nextFundingTime : Int64
deriving DecidableEq

def FundingRateRow.from (m : FundingRate) : FundingRateRow where
  origin := .of m.header m.symbol
  fundingRate := m.fundingRate
  nextFundingTime := m.nextFundingTime

structure LiquidationRow where
  origin : Origin
  side : UInt8
  price : Int64
  qty : Int64
  avgPrice : Int64
  lastFilledQty : Int64
deriving DecidableEq

def LiquidationRow.from (m : Liquidation) : Option LiquidationRow := do
  return {
    origin := .of m.header m.symbol
    side := m.side.toByte
    price := ← toD8 m.price m.priceScale
    qty := ← toD8 m.qty m.qtyScale
    avgPrice := ← toD8 m.avgPrice m.priceScale
    lastFilledQty := ← toD8 m.lastFilledQty m.qtyScale }

structure OpenInterestRow where
  origin : Origin
  openInterest : Int64
deriving DecidableEq

def OpenInterestRow.from (m : OpenInterest) : Option OpenInterestRow := do
  return {
    origin := .of m.header m.symbol
    openInterest := ← toD8 m.openInterest m.qtyScale }

structure BookDeltaRow where
  origin : Origin
  firstUpdateId : UInt64
  finalUpdateId : UInt64
  prevUpdateId : UInt64
  bidPrices : List Int64
  bidQtys : List Int64
  askPrices : List Int64
  askQtys : List Int64
deriving DecidableEq

def BookDeltaRow.from (m : BookDelta) : Option BookDeltaRow := do
  return {
    origin := .of m.header m.symbol
    firstUpdateId := m.firstUpdateId
    finalUpdateId := m.finalUpdateId
    prevUpdateId := m.prevUpdateId
    bidPrices := ← m.bids.mapM fun l => toD8 l.price m.priceScale
    bidQtys := ← m.bids.mapM fun l => toD8 l.qty m.qtyScale
    askPrices := ← m.asks.mapM fun l => toD8 l.price m.priceScale
    askQtys := ← m.asks.mapM fun l => toD8 l.qty m.qtyScale }

structure InstrumentRow where
  localRecvTs : Int64
  venueId : UInt8
  marketType : UInt8
  instrumentId : UInt32
  symbol : String
  baseAsset : String
  quoteAsset : String
  priceScale : UInt32
  qtyScale : UInt32
  tickSize : Int64
  stepSize : Int64
  minQty : Int64
  minNotional : Int64
  contractSize : Int64
  isTrading : UInt8
deriving DecidableEq

/-- The scales of the definition are cut to a byte. -/
def InstrumentRow.from (m : InstrumentDefinition) : Option InstrumentRow := do
  let ps := m.priceScale.toUInt8
  let qs := m.qtyScale.toUInt8
  return {
    localRecvTs := m.header.localRecvTs
    venueId := m.header.venueId.toByte
    marketType := m.header.marketType.toByte
    instrumentId := m.header.instrumentId
    symbol := m.symbol
    baseAsset := m.baseAsset
    quoteAsset := m.quoteAsset
    priceScale := m.priceScale
    qtyScale := m.qtyScale
    tickSize := ← toD8 m.tickSize ps
    stepSize := ← toD8 m.stepSize qs
    minQty := ← toD8 m.minQty qs
    minNotional := ← toD8 m.minNotional ps
    contractSize := ← toD8 m.contractSize qs
    isTrading := m.isTrading.toUInt8 }

/-- A row of one of the tables. -/
inductive Row
  | trades (row : TradeRow)
  | bestBidOffers (row : BboRow)
  | markPrices (row : MarkPriceRow)
  | fundingRates (row : FundingRateRow)
  | liquidations (row : LiquidationRow)
  | openInterest (row : OpenInterestRow)
  | bookDeltas (row : BookDeltaRow)
  | instruments (row : InstrumentRow)
deriving DecidableEq

/-- What becomes of a message: a row, nothing if it has no table, or a panic. -/
inductive Conversion
  | row (row : Row)
  | noTable
  | panicked

namespace Conversion

def of {α : Type} (table : α → Row) : Option α → Conversion
  | some converted => .row (table converted)
  | none => panicked

def row? : Conversion → Option Row
  | row r => some r
  | _ => none

end Conversion

def convert : NormalizedMessage → Conversion
  | .instrumentDefinition m => .of .instruments (InstrumentRow.from m)
  | .trade m => .of .trades (TradeRow.from m)
  | .bestBidOffer m => .of .bestBidOffers (BboRow.from m)
  | .markPrice m => .of .markPrices (MarkPriceRow.from m)
  | .fundingRate m => .row (.fundingRates (FundingRateRow.from m))
  | .liquidation m => .of .liquidations (LiquidationRow.from m)
  | .openInterest m => .of .openInterest (OpenInterestRow.from m)
  | .bookDelta m => .of .bookDeltas (BookDeltaRow.from m)
  | _ => .noTable

end TradingConnectivity.Bridge
