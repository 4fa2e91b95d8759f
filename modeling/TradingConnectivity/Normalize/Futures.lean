import TradingConnectivity.Normalize.Context

/-! # Futures events in JSON

The events of the futures streams and their normalization. A mark price event becomes two messages
when it carries a funding rate, and takes a sequence number for each of them before their strings
are parsed.
-/

namespace TradingConnectivity.Normalize.Futures

open ConnectorCore
open MarketData (PriceLevel)

structure FuturesBookTicker where
  updateId : UInt64
  bidPrice : String
  bidQty : String
  askPrice : String
  askQty : String
deriving DecidableEq, Repr

structure FuturesDepthUpdate where
  eventTimeMs : Int64
  firstUpdateId : UInt64
  lastUpdateId : UInt64
  /-- The final update id of the previous event. -/
  prevFinalUpdateId : UInt64
  bids : List (String × String)
  asks : List (String × String)
deriving DecidableEq, Repr

structure FuturesAggTrade where
  eventTimeMs : Int64
  aggTradeId : UInt64
  price : String
  qty : String
  tradeTimeMs : Int64
  isBuyerMaker : Bool
deriving DecidableEq, Repr

structure FuturesMarkPrice where
  eventTimeMs : Int64
  markPrice : String
  /-- Empty when it is not available. -/
  indexPrice : String
  /-- Empty between settlement windows. -/
  fundingRate : String
  nextFundingTimeMs : Int64
deriving DecidableEq, Repr

structure FuturesLiquidationOrder where
  side : String
  qty : String
  price : String
  avgPrice : String
  lastFilledQty : String
deriving DecidableEq, Repr

structure FuturesForceOrder where
  eventTimeMs : Int64
  order : FuturesLiquidationOrder
deriving DecidableEq, Repr

inductive FuturesEvent
  | bookTicker (bt : FuturesBookTicker)
  | depthUpdate (du : FuturesDepthUpdate)
  | aggTrade (agg : FuturesAggTrade)
  | markPrice (mp : FuturesMarkPrice)
  | forceOrder (fo : FuturesForceOrder)
  /-- A stream of another type, by its name. -/
  | unknown (stream : String)
deriving DecidableEq, Repr

inductive NormalizeError
  | invalidDecimal (value : String) (scale : UInt32)
  | unknownSide (side : String)
deriving DecidableEq, Repr

def parseScaled : String → UInt32 → Except (Failure NormalizeError) Int64 :=
  parseScaledWith .invalidDecimal

def normalizeBookTicker (bt : FuturesBookTicker) (inst : InstrumentDefinition) (ctx : NormalizeCtx)
    (recvTs : Int64) (seq : UInt64) : Except (Failure NormalizeError) BestBidOffer := do
  let p := inst.priceScale
  let q := inst.qtyScale
  return {
    header := makeHeader .bestBidOffer inst ctx seq tsNone recvTs
    symbol := inst.symbol
    priceScale := p.toUInt8
    qtyScale := q.toUInt8
    bidPrice := ← parseScaled bt.bidPrice p
    bidQty := ← parseScaled bt.bidQty q
    askPrice := ← parseScaled bt.askPrice p
    askQty := ← parseScaled bt.askQty q
    updateId := bt.updateId }

/-- The levels of one side, price before quantity. -/
def parseLevels (p q : UInt32) (levels : List (String × String)) :
    Except (Failure NormalizeError) (List PriceLevel) :=
  levels.mapM fun (price, qty) => do
    return { price := ← parseScaled price p, qty := ← parseScaled qty q }

def normalizeDepthUpdate (du : FuturesDepthUpdate) (inst : InstrumentDefinition)
    (ctx : NormalizeCtx) (recvTs : Int64) (seq : UInt64) :
    Except (Failure NormalizeError) BookDelta := do
  let p := inst.priceScale
  let q := inst.qtyScale
  let bids ← parseLevels p q du.bids
  let asks ← parseLevels p q du.asks
  return {
    header := makeHeader .bookDelta inst ctx seq (msToNs du.eventTimeMs) recvTs
    symbol := inst.symbol
    priceScale := p.toUInt8
    qtyScale := q.toUInt8
    firstUpdateId := du.firstUpdateId
    finalUpdateId := du.lastUpdateId
    prevUpdateId := du.prevFinalUpdateId
    bids, asks }

def normalizeAggTrade (agg : FuturesAggTrade) (inst : InstrumentDefinition) (ctx : NormalizeCtx)
    (recvTs : Int64) (seq : UInt64) : Except (Failure NormalizeError) Trade := do
  return {
    header := makeHeader .trade inst ctx seq (msToNs agg.eventTimeMs) recvTs
    symbol := inst.symbol
    priceScale := inst.priceScale.toUInt8
    qtyScale := inst.qtyScale.toUInt8
    tradeId := agg.aggTradeId
    price := ← parseScaled agg.price inst.priceScale
    qty := ← parseScaled agg.qty inst.qtyScale
    tradeTs := msToNs agg.tradeTimeMs
    isBuyerMaker := agg.isBuyerMaker
    aggressorSide := if agg.isBuyerMaker then .sell else .buy }

/-- The first message of a mark price event. -/
def normalizeMark (mp : FuturesMarkPrice) (indexPrice : Int64) (inst : InstrumentDefinition)
    (ctx : NormalizeCtx) (recvTs : Int64) (seq : UInt64) :
    Except (Failure NormalizeError) MarkPrice := do
  let p := inst.priceScale
  return {
    header := makeHeader .markPrice inst ctx seq (msToNs mp.eventTimeMs) recvTs
    symbol := inst.symbol
    priceScale := p.toUInt8
    markPrice := ← parseScaled mp.markPrice p
    indexPrice }

/-- The second message of a mark price event; the rate has nine decimal places. -/
def normalizeFunding (mp : FuturesMarkPrice) (inst : InstrumentDefinition) (ctx : NormalizeCtx)
    (recvTs : Int64) (seq : UInt64) : Except (Failure NormalizeError) FundingRate := do
  return {
    header := makeHeader .fundingRate inst ctx seq (msToNs mp.eventTimeMs) recvTs
    symbol := inst.symbol
    fundingRateScale := 9
    fundingRate := ← parseScaled mp.fundingRate 9
    nextFundingTime := msToNs mp.nextFundingTimeMs }

/-- An index price that is not available becomes zero. -/
def parseIndexPrice (mp : FuturesMarkPrice) (inst : InstrumentDefinition) :
    Except (Failure NormalizeError) Int64 :=
  if mp.indexPrice = "" then .ok 0 else parseScaled mp.indexPrice inst.priceScale

def normalizeMarkPrice (mp : FuturesMarkPrice) (inst : InstrumentDefinition) (ctx : NormalizeCtx)
    (recvTs : Int64) : Normalizer NormalizeError (List NormalizedMessage) := do
  let indexPrice ← MonadExcept.ofExcept (parseIndexPrice mp inst)
  let mark ← numbered (normalizeMark mp indexPrice inst ctx recvTs)
  if mp.fundingRate = "" then
    return [.markPrice mark]
  else
    let rate ← numbered (normalizeFunding mp inst ctx recvTs)
    return [.markPrice mark, .fundingRate rate]

def parseSide (side : String) : Except (Failure NormalizeError) AggressorSide :=
  match side with
  | "BUY" => .ok .buy
  | "SELL" => .ok .sell
  | other => .error (.returned (.unknownSide other))

def normalizeForceOrder (fo : FuturesForceOrder) (inst : InstrumentDefinition) (ctx : NormalizeCtx)
    (recvTs : Int64) (seq : UInt64) : Except (Failure NormalizeError) Liquidation := do
  let ord := fo.order
  let side ← parseSide ord.side
  let p := inst.priceScale
  let q := inst.qtyScale
  return {
    header := makeHeader .liquidation inst ctx seq (msToNs fo.eventTimeMs) recvTs
    symbol := inst.symbol
    priceScale := p.toUInt8
    qtyScale := q.toUInt8
    side
    price := ← parseScaled ord.price p
    qty := ← parseScaled ord.qty q
    avgPrice := ← parseScaled ord.avgPrice p
    lastFilledQty := ← parseScaled ord.lastFilledQty q }

/-- Events of other types become no messages. -/
def normalizeFuturesEvent (event : FuturesEvent) (inst : InstrumentDefinition) (ctx : NormalizeCtx)
    (recvTs : Int64) : Normalizer NormalizeError (List NormalizedMessage) := do
  match event with
  | .bookTicker bt => return [.bestBidOffer (← numbered (normalizeBookTicker bt inst ctx recvTs))]
  | .depthUpdate du => return [.bookDelta (← numbered (normalizeDepthUpdate du inst ctx recvTs))]
  | .aggTrade agg => return [.trade (← numbered (normalizeAggTrade agg inst ctx recvTs))]
  | .markPrice mp => normalizeMarkPrice mp inst ctx recvTs
  | .forceOrder fo => return [.liquidation (← numbered (normalizeForceOrder fo inst ctx recvTs))]
  | .unknown _ => return []

/-! ## Runs -/

variable (inst : InstrumentDefinition) (ctx : NormalizeCtx) (recvTs : Int64) (seq : UInt64)

theorem run_bookTicker (bt : FuturesBookTicker) :
    (normalizeFuturesEvent (.bookTicker bt) inst ctx recvTs).run.run seq =
      ((normalizeBookTicker bt inst ctx recvTs seq).map fun m => [.bestBidOffer m], seq + 1) :=
  run_numbered_map ..

theorem run_depthUpdate (du : FuturesDepthUpdate) :
    (normalizeFuturesEvent (.depthUpdate du) inst ctx recvTs).run.run seq =
      ((normalizeDepthUpdate du inst ctx recvTs seq).map fun m => [.bookDelta m], seq + 1) :=
  run_numbered_map ..

theorem run_aggTrade (agg : FuturesAggTrade) :
    (normalizeFuturesEvent (.aggTrade agg) inst ctx recvTs).run.run seq =
      ((normalizeAggTrade agg inst ctx recvTs seq).map fun m => [.trade m], seq + 1) :=
  run_numbered_map ..

theorem run_forceOrder (fo : FuturesForceOrder) :
    (normalizeFuturesEvent (.forceOrder fo) inst ctx recvTs).run.run seq =
      ((normalizeForceOrder fo inst ctx recvTs seq).map fun m => [.liquidation m], seq + 1) :=
  run_numbered_map ..

section MarkPrice

variable {inst ctx recvTs seq} {mp : FuturesMarkPrice} {indexPrice : Int64} {mark : MarkPrice}
  {f : Failure NormalizeError}

/-- An index price that does not parse fails before a number is taken. -/
theorem run_markPrice_index (index : parseIndexPrice mp inst = .error f) :
    (normalizeFuturesEvent (.markPrice mp) inst ctx recvTs).run.run seq = (.error f, seq) := by
  rw [normalizeFuturesEvent, normalizeMarkPrice, index,
    run_bind_error (run_ofExcept (.error f) seq)]

/-- A mark price that does not parse fails after one number is taken. -/
theorem run_markPrice_mark (index : parseIndexPrice mp inst = .ok indexPrice)
    (unmarked : normalizeMark mp indexPrice inst ctx recvTs seq = .error f) :
    (normalizeFuturesEvent (.markPrice mp) inst ctx recvTs).run.run seq = (.error f, seq + 1) := by
  have first := run_numbered (normalizeMark mp indexPrice inst ctx recvTs) seq
  rw [unmarked] at first
  rw [normalizeFuturesEvent, normalizeMarkPrice, index,
    run_bind_ok (run_ofExcept (.ok indexPrice) seq), run_bind_error first]

/-- After the first message the rest of the event depends on the funding rate. -/
private theorem run_markPrice_marked (index : parseIndexPrice mp inst = .ok indexPrice)
    (marked : normalizeMark mp indexPrice inst ctx recvTs seq = .ok mark) :
    (normalizeFuturesEvent (.markPrice mp) inst ctx recvTs).run.run seq =
      (if mp.fundingRate = "" then return [.markPrice mark]
        else do
          let rate ← numbered (normalizeFunding mp inst ctx recvTs)
          return [.markPrice mark, .fundingRate rate] :
        Normalizer NormalizeError (List NormalizedMessage)).run.run (seq + 1) := by
  have first := run_numbered (normalizeMark mp indexPrice inst ctx recvTs) seq
  rw [marked] at first
  rw [normalizeFuturesEvent, normalizeMarkPrice, index,
    run_bind_ok (run_ofExcept (.ok indexPrice) seq), run_bind_ok first]

/-- Without a funding rate there is one message. -/
theorem run_markPrice_unfunded (index : parseIndexPrice mp inst = .ok indexPrice)
    (marked : normalizeMark mp indexPrice inst ctx recvTs seq = .ok mark)
    (unfunded : mp.fundingRate = "") :
    (normalizeFuturesEvent (.markPrice mp) inst ctx recvTs).run.run seq =
      (.ok [.markPrice mark], seq + 1) := by
  rw [run_markPrice_marked index marked, if_pos unfunded]
  rfl

/-- A funding rate takes the second number, whether or not it parses. -/
theorem run_markPrice_funded (index : parseIndexPrice mp inst = .ok indexPrice)
    (marked : normalizeMark mp indexPrice inst ctx recvTs seq = .ok mark)
    (funded : mp.fundingRate ≠ "") :
    (normalizeFuturesEvent (.markPrice mp) inst ctx recvTs).run.run seq =
      ((normalizeFunding mp inst ctx recvTs (seq + 1)).map fun rate =>
        [.markPrice mark, .fundingRate rate], seq + 1 + 1) := by
  rw [run_markPrice_marked index marked, if_neg funded]
  exact run_numbered_map ..

end MarkPrice

end TradingConnectivity.Normalize.Futures
