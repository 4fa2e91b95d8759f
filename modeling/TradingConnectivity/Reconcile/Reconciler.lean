import TradingConnectivity.Lifecycle.StateMachine
import TradingConnectivity.Reconcile.Decimal

/-! # REST reconciliation

The reconciler turns raw REST responses into inputs of the state machine. A status check reads the
order's status and, for a filled order, the trades the caller fetched for it. Of the raw records
only the fields that this reads are kept.
-/

namespace TradingConnectivity.Reconcile

open Lifecycle (StatusCheckOutcome Trade)

/-- One order as the REST interface returns it. -/
structure RawRestOrder where
  symbol : String
  orderId : UInt64
  executedQty : String
  status : String
deriving DecidableEq, Repr

/-- One trade as the REST interface returns it. -/
structure RawRestTrade where
  symbol : String
  id : UInt64
  price : String
  qty : String
deriving DecidableEq, Repr

inductive RestOrderStatus
  | new
  | partiallyFilled
  | filled
  | canceled
  | pendingCancel
  | rejected
  | expired
  | expiredInMatch
  | unknown (raw : String)
deriving DecidableEq, Repr

namespace RestOrderStatus

def fromRaw (s : String) : RestOrderStatus :=
  if s = "NEW" then .new
  else if s = "PARTIALLY_FILLED" then .partiallyFilled
  else if s = "FILLED" then .filled
  else if s = "CANCELED" then .canceled
  else if s = "PENDING_CANCEL" then .pendingCancel
  else if s = "REJECTED" then .rejected
  else if s = "EXPIRED" then .expired
  else if s = "EXPIRED_IN_MATCH" then .expiredInMatch
  else .unknown s

end RestOrderStatus

structure Reconciler where
  defaultPriceScale : Int64
  defaultQtyScale : Int64
  symbolScales : Std.ExtTreeMap String SymbolScales

namespace Reconciler

def new (defaultPriceScale defaultQtyScale : Int64) : Reconciler :=
  ⟨defaultPriceScale, defaultQtyScale, ∅⟩

def scalesFor (rec : Reconciler) (symbol : String) : SymbolScales :=
  rec.symbolScales[symbol]?.getD ⟨rec.defaultPriceScale, rec.defaultQtyScale⟩

/-- The fills of a filled order, up to the first decimal that does not parse. -/
def parseFills (rec : Reconciler) (rawTrades : List RawRestTrade) : Parsed (List Trade) :=
  rawTrades.mapM fun t => do
    let scales := rec.scalesFor t.symbol
    let qty ← parseScaled t.qty scales.qtyScale
    let price ← parseScaled t.price scales.priceScale
    return ⟨t.id, qty, price⟩

/-- The outcome of a status check from the order's REST record and, if fetched, its trades. -/
def reconcileOrderStatus (rec : Reconciler) (rawOrder : RawRestOrder)
    (rawTrades : Option (List RawRestTrade)) : Parsed StatusCheckOutcome :=
  match RestOrderStatus.fromRaw rawOrder.status with
  | .new | .partiallyFilled | .pendingCancel => pure (.live rawOrder.orderId)
  | .filled => do
    let fills ← match rawTrades with
      | some trades => rec.parseFills trades
      | none => pure []
    return .filled rawOrder.orderId fills
  | .canceled => pure (.cancelled rawOrder.orderId)
  | .rejected =>
    pure (.rejected "order rejected by exchange (reason unavailable from REST)")
  | .expired | .expiredInMatch => pure (.expired rawOrder.orderId)
  | .unknown s => pure (.error s!"unrecognised REST order status: {s}")

end Reconciler

end TradingConnectivity.Reconcile
