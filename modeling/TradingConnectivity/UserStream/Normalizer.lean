import TradingConnectivity.Gateway.Cloid
import TradingConnectivity.Reconcile.Decimal

/-! # User data events

Execution reports, account positions and balance updates as the user data stream delivers them,
with quantities and prices as strings, and their normalization. Balances have a scale of their own;
the scales of an order depend on its symbol.
-/

namespace TradingConnectivity.UserStream

open Gateway (ClientOrderId OrderSide TimeInForce)
open Reconcile (NormalizerError Parsed SymbolScales parseScaled)

/-- The venue gives balances with eight decimal places. -/
def balanceScale : Int64 := 100000000

/-! ## Raw events -/

structure RawExecutionReport where
  eventTimeMs : Int64
  symbol : String
  clientOrderId : String
  sideRaw : String
  orderTypeRaw : String
  timeInForceRaw : String
  execTypeRaw : String
  orderStatusRaw : String
  /-- `NONE` when the order was not rejected. -/
  rejectReasonRaw : String
  exchangeOrderId : UInt64
  lastFillQtyRaw : String
  cumFillQtyRaw : String
  lastFillPriceRaw : String
  transactionTimeMs : Int64
  /-- Negative when the event is no fill. -/
  tradeId : Int64
  isMaker : Bool
deriving DecidableEq, Repr

structure RawAssetBalance where
  asset : String
  free : String
  locked : String
deriving DecidableEq, Repr

structure RawBalancePosition where
  eventTimeMs : Int64
  lastUpdateMs : Int64
  balances : List RawAssetBalance
deriving DecidableEq, Repr

structure RawBalanceUpdate where
  eventTimeMs : Int64
  asset : String
  /-- Negative for debits. -/
  deltaRaw : String
  clearTimeMs : Int64
deriving DecidableEq, Repr

inductive RawUserDataEvent
  | executionReport (rep : RawExecutionReport)
  | outboundAccountPosition (pos : RawBalancePosition)
  | balanceUpdate (upd : RawBalanceUpdate)
  | unknown (eventType : String)
deriving DecidableEq, Repr

/-! ## Normalized events -/

/-- What happened in an execution report. -/
inductive ExecutionType
  | new
  | canceled
  | replaced
  | rejected
  | trade
  | expired
  | tradePrevention
  | unknown (raw : String)
deriving DecidableEq, Repr

def ExecutionType.fromRaw : String → ExecutionType
  | "NEW" => .new
  | "CANCELED" => .canceled
  | "REPLACED" => .replaced
  | "REJECTED" => .rejected
  | "TRADE" => .trade
  | "EXPIRED" => .expired
  | "TRADE_PREVENTION" => .tradePrevention
  | other => .unknown other

structure OrderUpdate where
  exchangeId : UInt64
  /-- Missing for orders placed outside this system. -/
  cloid : Option ClientOrderId
  rawCloid : String
  symbol : String
  side : OrderSide
  orderType : Gateway.OrderType
  timeInForce : TimeInForce
  execType : ExecutionType
  orderStatusRaw : String
  lastFillQty : Int64
  lastFillPrice : Int64
  cumFillQty : Int64
  tradeId : Option UInt64
  rejectReason : Option String
  isMaker : Bool
  eventTimeNs : Int64
  transactionTimeNs : Int64
deriving DecidableEq, Repr

structure AssetBalance where
  asset : String
  freeScaled : Int64
  lockedScaled : Int64
deriving DecidableEq, Repr

structure AccountUpdate where
  balances : List AssetBalance
  eventTimeNs : Int64
  lastUpdateNs : Int64
deriving DecidableEq, Repr

structure BalanceDelta where
  asset : String
  /-- Positive for credits, negative for debits. -/
  deltaScaled : Int64
  eventTimeNs : Int64
  transactionTimeNs : Int64
deriving DecidableEq, Repr

inductive NormalizedEvent
  | orderUpdate (upd : OrderUpdate)
  | accountUpdate (upd : AccountUpdate)
  | balanceDelta (d : BalanceDelta)
  | unknown (eventType : String)
deriving DecidableEq, Repr

/-! ## Normalization -/

structure Normalizer where
  defaultPriceScale : Int64
  defaultQtyScale : Int64
  symbolScales : Std.ExtTreeMap String SymbolScales

def parseSide : String → Parsed OrderSide
  | "BUY" => pure .buy
  | "SELL" => pure .sell
  | other => throw (.unknownSide other)

def parseOrderType : String → Parsed Gateway.OrderType
  | "LIMIT" => pure .limit
  | "MARKET" => pure .market
  | other => throw (.unknownOrderType other)

def parseTif : String → Parsed TimeInForce
  | "GTC" => pure .goodTillCancel
  | "IOC" => pure .immediateOrCancel
  | "FOK" => pure .fillOrKill
  | other => throw (.unknownTimeInForce other)

namespace Normalizer

def new (defaultPriceScale defaultQtyScale : Int64) : Normalizer :=
  ⟨defaultPriceScale, defaultQtyScale, ∅⟩

/-- The scales of a symbol take precedence over the defaults. -/
def scalesFor (normalizer : Normalizer) (symbol : String) : SymbolScales :=
  (normalizer.symbolScales[symbol]?).getD
    ⟨normalizer.defaultPriceScale, normalizer.defaultQtyScale⟩

def normalizeReport (normalizer : Normalizer) (rep : RawExecutionReport) : Parsed OrderUpdate := do
  let scales := normalizer.scalesFor rep.symbol
  let side ← parseSide rep.sideRaw
  let orderType ← parseOrderType rep.orderTypeRaw
  let tif ← parseTif rep.timeInForceRaw
  let lastFillQty ← parseScaled rep.lastFillQtyRaw scales.qtyScale
  let lastFillPrice ← parseScaled rep.lastFillPriceRaw scales.priceScale
  let cumFillQty ← parseScaled rep.cumFillQtyRaw scales.qtyScale
  let cand : ClientOrderId := ⟨rep.clientOrderId⟩
  return {
    exchangeId := rep.exchangeOrderId
    cloid := if cand.parseCounter.isSome then some cand else none
    rawCloid := rep.clientOrderId
    symbol := rep.symbol
    side
    orderType
    timeInForce := tif
    execType := .fromRaw rep.execTypeRaw
    orderStatusRaw := rep.orderStatusRaw
    lastFillQty
    lastFillPrice
    cumFillQty
    tradeId := if 0 ≤ rep.tradeId then some rep.tradeId.toUInt64 else none
    rejectReason :=
      if rep.rejectReasonRaw = "" ∨ rep.rejectReasonRaw = "NONE" then none
      else some rep.rejectReasonRaw
    isMaker := rep.isMaker
    eventTimeNs := rep.eventTimeMs * 1000000
    transactionTimeNs := rep.transactionTimeMs * 1000000 }

def normalizeBalance (b : RawAssetBalance) : Parsed AssetBalance := do
  let freeScaled ← parseScaled b.free balanceScale
  let lockedScaled ← parseScaled b.locked balanceScale
  return { asset := b.asset, freeScaled, lockedScaled }

/-- Normalize one raw event. -/
def normalize (normalizer : Normalizer) : RawUserDataEvent → Parsed NormalizedEvent
  | .executionReport rep => .orderUpdate <$> normalizer.normalizeReport rep
  | .outboundAccountPosition pos => do
    let balances ← pos.balances.mapM normalizeBalance
    return .accountUpdate {
      balances
      eventTimeNs := pos.eventTimeMs * 1000000
      lastUpdateNs := pos.lastUpdateMs * 1000000 }
  | .balanceUpdate upd => do
    let deltaScaled ← parseScaled upd.deltaRaw balanceScale
    return .balanceDelta {
      asset := upd.asset
      deltaScaled
      eventTimeNs := upd.eventTimeMs * 1000000
      transactionTimeNs := upd.clearTimeMs * 1000000 }
  | .unknown eventType => pure (.unknown eventType)

end Normalizer

end TradingConnectivity.UserStream
