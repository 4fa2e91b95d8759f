import TradingConnectivity.Normalize.Context

/-! # Spot events in JSON

The events of the spot streams with prices and quantities as strings, and their normalization. The
sequence number is taken before the strings are parsed.
-/

namespace TradingConnectivity.Normalize.Spot

open ConnectorCore
open MarketData (PriceLevel)

structure SpotBookTicker where
  updateId : UInt64
  bidPrice : String
  bidQty : String
  askPrice : String
  askQty : String
deriving DecidableEq, Repr

structure SpotDepthUpdate where
  eventTimeMs : Int64
  firstUpdateId : UInt64
  lastUpdateId : UInt64
  /-- Price and quantity; a zero quantity removes the level. -/
  bids : List (String × String)
  asks : List (String × String)
deriving DecidableEq, Repr

structure SpotTrade where
  eventTimeMs : Int64
  tradeId : UInt64
  price : String
  qty : String
  tradeTimeMs : Int64
  /-- The buyer is the maker, so the seller aggressed. -/
  isBuyerMaker : Bool
deriving DecidableEq, Repr

inductive SpotEvent
  | bookTicker (bt : SpotBookTicker)
  | depthUpdate (du : SpotDepthUpdate)
  | trade (tr : SpotTrade)
  /-- A stream of another type, by its name. -/
  | unknown (stream : String)
deriving DecidableEq, Repr

inductive NormalizeError
  | invalidDecimal (value : String) (scale : UInt32)
deriving DecidableEq, Repr

def parseScaled : String → UInt32 → Except (Failure NormalizeError) Int64 :=
  parseScaledWith .invalidDecimal

def normalizeBookTicker (bt : SpotBookTicker) (inst : InstrumentDefinition) (ctx : NormalizeCtx)
    (recvTs : Int64) (seq : UInt64) : Except (Failure NormalizeError) BestBidOffer := do
  let p := inst.priceScale
  let q := inst.qtyScale
  return {
    header := makeHeader .bestBidOffer inst ctx seq tsNone recvTs
    symbol := inst.symbol
    priceScale := p.toUInt8
    qtyScale := q.toUInt8
    bidPrice := ← parseScaled bt.bidPrice p
    bidQty := ← parseScaled bt.bidQty q
    askPrice := ← parseScaled bt.askPrice p
    askQty := ← parseScaled bt.askQty q
    updateId := bt.updateId }

/-- The levels of one side, price before quantity. -/
def parseLevels (p q : UInt32) (levels : List (String × String)) :
    Except (Failure NormalizeError) (List PriceLevel) :=
  levels.mapM fun (price, qty) => do
    return { price := ← parseScaled price p, qty := ← parseScaled qty q }

def normalizeDepthUpdate (du : SpotDepthUpdate) (inst : InstrumentDefinition) (ctx : NormalizeCtx)
    (recvTs : Int64) (seq : UInt64) : Except (Failure NormalizeError) BookDelta := do
  let p := inst.priceScale
  let q := inst.qtyScale
  let bids ← parseLevels p q du.bids
  let asks ← parseLevels p q du.asks
  return {
    header := makeHeader .bookDelta inst ctx seq (msToNs du.eventTimeMs) recvTs
    symbol := inst.symbol
    priceScale := p.toUInt8
    qtyScale := q.toUInt8
    firstUpdateId := du.firstUpdateId
    finalUpdateId := du.lastUpdateId
    prevUpdateId := updateIdNone
    bids, asks }

def normalizeTrade (tr : SpotTrade) (inst : InstrumentDefinition) (ctx : NormalizeCtx)
    (recvTs : Int64) (seq : UInt64) : Except (Failure NormalizeError) Trade := do
  return {
    header := makeHeader .trade inst ctx seq (msToNs tr.eventTimeMs) recvTs
    symbol := inst.symbol
    priceScale := inst.priceScale.toUInt8
    qtyScale := inst.qtyScale.toUInt8
    tradeId := tr.tradeId
    price := ← parseScaled tr.price inst.priceScale
    qty := ← parseScaled tr.qty inst.qtyScale
    tradeTs := msToNs tr.tradeTimeMs
    isBuyerMaker := tr.isBuyerMaker
    aggressorSide := if tr.isBuyerMaker then .sell else .buy }

/-- Events of other types are skipped. -/
def normalizeSpotEvent (event : SpotEvent) (inst : InstrumentDefinition) (ctx : NormalizeCtx)
    (recvTs : Int64) : Normalizer NormalizeError (Option NormalizedMessage) := do
  match event with
  | .bookTicker bt =>
    return some (.bestBidOffer (← numbered (normalizeBookTicker bt inst ctx recvTs)))
  | .depthUpdate du =>
    return some (.bookDelta (← numbered (normalizeDepthUpdate du inst ctx recvTs)))
  | .trade tr => return some (.trade (← numbered (normalizeTrade tr inst ctx recvTs)))
  | .unknown _ => return none

/-! ## Runs -/

variable (inst : InstrumentDefinition) (ctx : NormalizeCtx) (recvTs : Int64) (seq : UInt64)

theorem run_bookTicker (bt : SpotBookTicker) :
    (normalizeSpotEvent (.bookTicker bt) inst ctx recvTs).run.run seq =
      ((normalizeBookTicker bt inst ctx recvTs seq).map fun m => some (.bestBidOffer m), seq + 1) :=
  run_numbered_map ..

theorem run_depthUpdate (du : SpotDepthUpdate) :
    (normalizeSpotEvent (.depthUpdate du) inst ctx recvTs).run.run seq =
      ((normalizeDepthUpdate du inst ctx recvTs seq).map fun m => some (.bookDelta m), seq + 1) :=
  run_numbered_map ..

theorem run_trade (tr : SpotTrade) :
    (normalizeSpotEvent (.trade tr) inst ctx recvTs).run.run seq =
      ((normalizeTrade tr inst ctx recvTs seq).map fun m => some (.trade m), seq + 1) :=
  run_numbered_map ..

end TradingConnectivity.Normalize.Spot
