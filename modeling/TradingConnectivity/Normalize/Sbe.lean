import TradingConnectivity.Normalize.Context

/-! # Spot events in SBE

The decoded events of the binary spot streams and their normalization. Prices and quantities are
mantissas with eight decimal places.
-/

namespace TradingConnectivity.Normalize.Sbe

open ConnectorCore
open MarketData (PriceLevel)

/-- The number of decimal places of every price and quantity. -/
def scale : UInt32 := 8

structure Decimal64 where
  mantissa : Int64
deriving DecidableEq, Repr

/-- Convert to an integer in units of ten to the minus `targetScale`; excess digits are cut. -/
def Decimal64.toScaled (d : Decimal64) (targetScale : UInt32) : Int64 :=
  if targetScale = scale then d.mantissa
  else if targetScale < scale then d.mantissa / Int64.ofInt (10 ^ (scale - targetScale).toNat)
  else d.mantissa * Int64.ofInt (10 ^ (targetScale - scale).toNat)

inductive AggressorSide
  | sell
  | buy
  | unknown
deriving DecidableEq, Repr

structure TradeEvent where
  /-- Timestamps are in milliseconds since the Unix epoch. -/
  eventTime : Int64
  transactTime : Int64
  tradeId : Int64
  price : Decimal64
  quantity : Decimal64
  aggressorSide : AggressorSide
  isBuyerMarketMaker : Bool
deriving DecidableEq, Repr

structure BboEvent where
  eventTime : Int64
  bestBidPrice : Decimal64
  bestBidQty : Decimal64
  bestAskPrice : Decimal64
  bestAskQty : Decimal64
deriving DecidableEq, Repr

structure DepthLevel where
  price : Decimal64
  quantity : Decimal64
deriving DecidableEq, Repr

structure DepthDiffEvent where
  /-- In milliseconds since the Unix epoch. -/
  eventTime : Int64
  firstUpdateId : Int64
  finalUpdateId : Int64
  /-- Zero for spot streams. -/
  prevFinalUpdateId : Int64
  bids : List DepthLevel
  asks : List DepthLevel
deriving DecidableEq, Repr

inductive SbeMessage
  | trade (ev : TradeEvent)
  | bbo (ev : BboEvent)
  | depthSnapshot
  | depthDiff (ev : DepthDiffEvent)
deriving DecidableEq, Repr

def sbeAggressorToCore : AggressorSide → ConnectorCore.AggressorSide
  | .buy => .buy
  | .sell => .sell
  | .unknown => .unknown

def normalizeTrade (ev : TradeEvent) (inst : InstrumentDefinition) (ctx : NormalizeCtx)
    (seq : UInt64) (recvTs : Int64) : NormalizedMessage :=
  .trade {
    header := makeHeader .trade inst ctx seq (usToNs ev.eventTime) recvTs
    symbol := inst.symbol
    priceScale := inst.priceScale.toUInt8
    qtyScale := inst.qtyScale.toUInt8
    tradeId := ev.tradeId.toUInt64
    price := ev.price.toScaled inst.priceScale
    qty := ev.quantity.toScaled inst.qtyScale
    tradeTs := usToNs ev.transactTime
    isBuyerMaker := ev.isBuyerMarketMaker
    aggressorSide := sbeAggressorToCore ev.aggressorSide }

def normalizeBbo (ev : BboEvent) (inst : InstrumentDefinition) (ctx : NormalizeCtx)
    (seq : UInt64) (recvTs : Int64) : NormalizedMessage :=
  .bestBidOffer {
    header := makeHeader .bestBidOffer inst ctx seq (usToNs ev.eventTime) recvTs
    symbol := inst.symbol
    priceScale := inst.priceScale.toUInt8
    qtyScale := inst.qtyScale.toUInt8
    bidPrice := ev.bestBidPrice.toScaled inst.priceScale
    bidQty := ev.bestBidQty.toScaled inst.qtyScale
    askPrice := ev.bestAskPrice.toScaled inst.priceScale
    askQty := ev.bestAskQty.toScaled inst.qtyScale
    updateId := updateIdNone }

def DepthLevel.normalize (p q : UInt32) (lvl : DepthLevel) : PriceLevel where
  price := lvl.price.toScaled p
  qty := lvl.quantity.toScaled q

def normalizeDepthDiff (ev : DepthDiffEvent) (inst : InstrumentDefinition) (ctx : NormalizeCtx)
    (seq : UInt64) (recvTs : Int64) : NormalizedMessage :=
  let p := inst.priceScale
  let q := inst.qtyScale
  .bookDelta {
    header := makeHeader .bookDelta inst ctx seq (usToNs ev.eventTime) recvTs
    symbol := inst.symbol
    priceScale := p.toUInt8
    qtyScale := q.toUInt8
    firstUpdateId := ev.firstUpdateId.toUInt64
    finalUpdateId := ev.finalUpdateId.toUInt64
    prevUpdateId := ev.prevFinalUpdateId.toUInt64
    bids := ev.bids.map (DepthLevel.normalize p q)
    asks := ev.asks.map (DepthLevel.normalize p q) }

/-- Partial book snapshots are skipped. -/
def normalizeSbeMessage (msg : SbeMessage) (inst : InstrumentDefinition) (ctx : NormalizeCtx)
    (recvTs : Int64) : StateM UInt64 (Option NormalizedMessage) := do
  match msg with
  | .trade ev => return some (normalizeTrade ev inst ctx (← takeSeq) recvTs)
  | .bbo ev => return some (normalizeBbo ev inst ctx (← takeSeq) recvTs)
  | .depthDiff ev => return some (normalizeDepthDiff ev inst ctx (← takeSeq) recvTs)
  | .depthSnapshot => return none

end TradingConnectivity.Normalize.Sbe
