import Mathlib.Data.Finset.Insert
import TradingConnectivity.Gateway.Types

/-! # The order state machine

One machine per in-flight order sits above the gateway. Fills that arrive before the
acknowledgement, or while a status check is in flight, are buffered and flushed in order once the
order is known to be live; redelivered trades are recognised by their id. Every handler returns the
actions its caller must perform, in order, together with the next state.
-/

namespace TradingConnectivity.Lifecycle

open Gateway (ClientOrderId)

inductive SmStatus
  | pending
  | new
  | partiallyFilled
  | unknownStatus
  | filled
  | cancelled
  | rejected
  | expired
deriving DecidableEq, Repr

def SmStatus.isTerminal : SmStatus → Bool
  | .filled | .cancelled | .rejected | .expired => true
  | _ => false

/-- The order is on the book and fills apply directly. -/
def SmStatus.isLive : SmStatus → Bool
  | .new | .partiallyFilled => true
  | _ => false

/-- One execution as the exchange reports it. -/
structure Trade where
  tradeId : UInt64
  fillQty : Int64
  fillPrice : Int64
deriving DecidableEq, Repr

/-- A fill whose trade id is already recorded. -/
structure BufferedFill where
  fillQty : Int64
  fillPrice : Int64
deriving DecidableEq, Repr

/-- What remains of a trade once its id is recorded. -/
def Trade.fill (trade : Trade) : BufferedFill := ⟨trade.fillQty, trade.fillPrice⟩

/-- Outcome of a REST order status check. -/
inductive StatusCheckOutcome
  | live (exchangeId : UInt64)
  | filled (exchangeId : UInt64) (fills : List Trade)
  | cancelled (exchangeId : UInt64)
  | rejected (reason : String)
  | expired (exchangeId : UInt64)
  | notFound
  | error (reason : String)
deriving DecidableEq, Repr

/-- Events from the user-data stream or from REST. -/
inductive SmInput
  | acknowledged (exchangeId : UInt64) (nowNs : Int64)
  | fillReceived (trade : Trade) (nowNs : Int64)
  | cancelConfirmed (nowNs : Int64)
  | rejected (reason : String) (nowNs : Int64)
  | expired (nowNs : Int64)
  | statusCheckResult (outcome : StatusCheckOutcome) (nowNs : Int64)
deriving DecidableEq, Repr

/-- What the caller must do; each names one gateway method or the REST check. -/
inductive SmAction
  | applyAck (exchangeId : UInt64)
  | applyFill (fillQty fillPrice : Int64)
  | applyCancel
  | applyReject (reason : String)
  | applyExpire
  | scheduleStatusCheck
  | ignored
deriving DecidableEq, Repr

def BufferedFill.action (fill : BufferedFill) : SmAction := .applyFill fill.fillQty fill.fillPrice

structure OrderSm where
  cloid : ClientOrderId
  status : SmStatus
  totalQty : Int64
  filledQty : Int64
  submittedNs : Int64
  bufferedFills : List BufferedFill
  seenTradeIds : Finset UInt64
deriving DecidableEq

namespace OrderSm

def new (cloid : ClientOrderId) (totalQty submittedNs : Int64) : OrderSm where
  cloid := cloid
  status := .pending
  totalQty := totalQty
  filledQty := 0
  submittedNs := submittedNs
  bufferedFills := []
  seenTradeIds := ∅

/-! ## Shared parts of the handlers -/

/-- The loop that applies buffered fills, oldest first. -/
def applyBuffered (sm : OrderSm) (actions : List SmAction) :
    List BufferedFill → OrderSm × List SmAction
  | [] => (sm, actions)
  | f :: rest =>
      applyBuffered { sm with filledQty := sm.filledQty + f.fillQty }
        (actions ++ [.applyFill f.fillQty f.fillPrice]) rest

/-- The loop over the trades of a status check, skipping those already seen. -/
def applyTrades (sm : OrderSm) (actions : List SmAction) : List Trade → OrderSm × List SmAction
  | [] => (sm, actions)
  | t :: rest =>
      if t.tradeId ∈ sm.seenTradeIds then applyTrades sm actions rest
      else
        applyTrades { sm with
            seenTradeIds := insert t.tradeId sm.seenTradeIds
            filledQty := sm.filledQty + t.fillQty }
          (actions ++ [.applyFill t.fillQty t.fillPrice]) rest

/-- The status after an acknowledgement and its flush. -/
def statusAfterFlush (sm : OrderSm) : SmStatus :=
  if sm.filledQty ≥ sm.totalQty then .filled
  else if sm.filledQty > 0 then .partiallyFilled
  else .new

/-- The order is on the book: acknowledge it and flush every buffered fill. -/
def acknowledge (sm : OrderSm) (exchangeId : UInt64) : OrderSm × List SmAction :=
  let (flushed, actions) := applyBuffered { sm with status := .new, bufferedFills := [] }
    [.applyAck exchangeId] sm.bufferedFills
  ({ flushed with status := flushed.statusAfterFlush }, actions)

/-- A fill that cannot be applied yet is kept for the acknowledgement. -/
def bufferFill (sm : OrderSm) (trade : Trade) : OrderSm × List SmAction :=
  if trade.tradeId ∈ sm.seenTradeIds then (sm, [.ignored])
  else
    ({ sm with
        seenTradeIds := insert trade.tradeId sm.seenTradeIds
        bufferedFills := sm.bufferedFills ++ [trade.fill] }, [])

/-- The order ended; the buffer is left as it is. -/
def close (sm : OrderSm) (target : SmStatus) (action : SmAction) : OrderSm × List SmAction :=
  ({ sm with status := target }, [action])

/-! ## Handlers -/

def processPending (sm : OrderSm) : SmInput → OrderSm × List SmAction
  | .acknowledged exchangeId _ => sm.acknowledge exchangeId
  | .fillReceived trade _ => sm.bufferFill trade
  | .rejected reason _ => sm.close .rejected (.applyReject reason)
  | .cancelConfirmed _ => sm.close .cancelled .applyCancel
  | _ => (sm, [.ignored])

def processLive (sm : OrderSm) : SmInput → OrderSm × List SmAction
  | .fillReceived trade _ =>
      if trade.tradeId ∈ sm.seenTradeIds then (sm, [.ignored])
      else
        let filledQty := sm.filledQty + trade.fillQty
        ({ sm with
            seenTradeIds := insert trade.tradeId sm.seenTradeIds
            filledQty
            status := if filledQty ≥ sm.totalQty then .filled else .partiallyFilled },
          [.applyFill trade.fillQty trade.fillPrice])
  | .cancelConfirmed _ => sm.close .cancelled .applyCancel
  | .expired _ => sm.close .expired .applyExpire
  | .rejected reason _ => sm.close .rejected (.applyReject reason)
  | .acknowledged _ _ => (sm, [.ignored])
  | _ => (sm, [.ignored])

/-- Resolve the unknown status from a REST status check. -/
def resolveFromCheck (sm : OrderSm) : StatusCheckOutcome → OrderSm × List SmAction
  | .live exchangeId => sm.acknowledge exchangeId
  | .filled exchangeId fills =>
      let (fetched, actions) := sm.applyTrades [.applyAck exchangeId] fills
      let (flushed, actions) :=
        applyBuffered { fetched with bufferedFills := [] } actions fetched.bufferedFills
      ({ flushed with status := .filled }, actions)
  | .cancelled _ => sm.close .cancelled .applyCancel
  | .rejected reason => sm.close .rejected (.applyReject reason)
  | .expired _ => sm.close .expired .applyExpire
  | .notFound => sm.close .rejected (.applyReject "order not found by REST status check")
  | .error _ => (sm, [.scheduleStatusCheck])

def processUnknown (sm : OrderSm) : SmInput → OrderSm × List SmAction
  | .acknowledged exchangeId _ => sm.acknowledge exchangeId
  | .fillReceived trade _ => sm.bufferFill trade
  | .cancelConfirmed _ => sm.close .cancelled .applyCancel
  | .statusCheckResult outcome _ => sm.resolveFromCheck outcome
  | _ => (sm, [.ignored])

/-- Process one event and return the actions to perform. -/
def processInput (sm : OrderSm) (input : SmInput) : OrderSm × List SmAction :=
  if sm.status.isTerminal then (sm, [.ignored])
  else
    match sm.status with
    | .pending => sm.processPending input
    | .new | .partiallyFilled => sm.processLive input
    | .unknownStatus => sm.processUnknown input
    | _ => (sm, [.ignored])

/-- The timer's part for one order: a pending order that waited too long becomes unknown. -/
def tick (sm : OrderSm) (timeoutNs nowNs : Int64) : OrderSm × List SmAction :=
  if sm.status = .pending ∧ nowNs.saturatingSub sm.submittedNs > timeoutNs then
    ({ sm with status := .unknownStatus }, [.scheduleStatusCheck])
  else (sm, [])

end OrderSm

end TradingConnectivity.Lifecycle
