import TradingConnectivity.Machine.History
import TradingConnectivity.Gateway.Cloid
import TradingConnectivity.Gateway.Journal

/-! # The order gateway

The gateway assigns client order ids, tracks in-flight orders and journals every accepted lifecycle
event. An operation returns its result together with the next state, because it changes the state
before the journal can fail. `replayJournal` is the second interpreter of the same events, used when
a gateway is opened on an existing journal.
-/

namespace TradingConnectivity.Gateway

abbrev Orders := Std.ExtTreeMap ClientOrderId PendingOrder

structure OrderGateway where
  instanceId : UInt32
  cloidGen : ClientOrderIdGenerator
  journal : Journal
  orders : Orders

namespace OrderGateway

/-- A gateway with no order yet, over a given journal. -/
def fresh (instanceId : UInt32) (journal : Journal) : OrderGateway :=
  ⟨instanceId, .new instanceId, journal, ∅⟩

def inMemory (instanceId : UInt32) : OrderGateway := fresh instanceId .inMemory

/-! ## Pre-trade -/

/-- The order `enqueue` tracks. -/
def pendingOrder (cloid : ClientOrderId) (request : OrderRequest) (nowNs : Int64) :
    PendingOrder where
  cloid := cloid
  request := request
  status := .pending
  exchangeId := none
  filledQty := 0
  submittedNs := nowNs
  lastUpdatedNs := nowNs

/-- Assign an id, journal the request and track the order as pending. A failed append has already
advanced the generator. -/
def enqueue (gw : OrderGateway) (request : OrderRequest) (nowNs : Int64) :
    Except Error ClientOrderId × OrderGateway :=
  let (cloid, cloidGen) := gw.cloidGen.generate
  match gw.journal.append (.orderRequested nowNs cloid request) with
  | (.error e, journal) => (.error e, { gw with cloidGen, journal })
  | (.ok (), journal) =>
      (.ok cloid, { gw with
        cloidGen, journal, orders := gw.orders.insert cloid (pendingOrder cloid request nowNs) })

/-! ## Lifecycle events -/

/-- Store an updated order, then journal the event. -/
def commit (gw : OrderGateway) (cloid : ClientOrderId) (order : PendingOrder)
    (entry : JournalEntry) : Except Error Unit × OrderGateway :=
  let (result, journal) := gw.journal.append entry
  (result, { gw with journal, orders := gw.orders.insert cloid order })

/-- Exchange acknowledged the order. A repeated acknowledgement is ignored; one that arrives after a
fill sets the status back to `new`. -/
def onAck (gw : OrderGateway) (cloid : ClientOrderId) (exchangeId : UInt64) (nowNs : Int64) :
    Except Error Unit × OrderGateway :=
  match gw.orders[cloid]? with
  | none => (.error (.orderNotFound cloid.asStr), gw)
  | some order =>
      if order.status = .new then (.ok (), gw)
      else if order.status.isTerminal then
        (.error (.invalidTransition cloid.asStr order.status .new), gw)
      else
        gw.commit cloid
          { order with exchangeId := some exchangeId, status := .new, lastUpdatedNs := nowNs }
          (.orderAcknowledged nowNs cloid exchangeId)

/-- The order after a fill, and whether the fill completes it. -/
def fillOrder (order : PendingOrder) (fillQty nowNs : Int64) : PendingOrder × Bool :=
  let filledQty := order.filledQty + fillQty
  let fullyFilled := decide (filledQty ≥ order.request.qty)
  ({ order with
      filledQty
      lastUpdatedNs := nowNs
      status := if fullyFilled then .filled else .partiallyFilled }, fullyFilled)

/-- A fill arrived; the quantity is that of the single fill. -/
def onFill (gw : OrderGateway) (cloid : ClientOrderId) (fillQty fillPrice nowNs : Int64) :
    Except Error Unit × OrderGateway :=
  match gw.orders[cloid]? with
  | none => (.error (.orderNotFound cloid.asStr), gw)
  | some order =>
      if order.status.isTerminal then
        (.error (.invalidTransition cloid.asStr order.status .partiallyFilled), gw)
      else
        let (filled, isFinal) := fillOrder order fillQty nowNs
        gw.commit cloid filled (.orderFilled nowNs cloid fillQty fillPrice isFinal)

/-- The common part of the closing events: a live order takes the terminal status. -/
def close (gw : OrderGateway) (cloid : ClientOrderId) (target : OrderStatus) (nowNs : Int64)
    (entry : JournalEntry) : Except Error Unit × OrderGateway :=
  match gw.orders[cloid]? with
  | none => (.error (.orderNotFound cloid.asStr), gw)
  | some order =>
      if order.status.isTerminal then
        (.error (.invalidTransition cloid.asStr order.status target), gw)
      else gw.commit cloid { order with status := target, lastUpdatedNs := nowNs } entry

/-- The exchange cancelled the order; unlike the other closing events a repetition is ignored. -/
def onCancel (gw : OrderGateway) (cloid : ClientOrderId) (nowNs : Int64) :
    Except Error Unit × OrderGateway :=
  match gw.orders[cloid]? with
  | none => (.error (.orderNotFound cloid.asStr), gw)
  | some order =>
      if order.status = .cancelled then (.ok (), gw)
      else gw.close cloid .cancelled nowNs (.orderCancelled nowNs cloid)

/-- The exchange rejected the order. -/
def onReject (gw : OrderGateway) (cloid : ClientOrderId) (reason : String) (nowNs : Int64) :
    Except Error Unit × OrderGateway :=
  gw.close cloid .rejected nowNs (.orderRejected nowNs cloid reason)

/-- The order expired. -/
def onExpire (gw : OrderGateway) (cloid : ClientOrderId) (nowNs : Int64) :
    Except Error Unit × OrderGateway :=
  gw.close cloid .expired nowNs (.orderExpired nowNs cloid)

/-! ## Recovery -/

/-- Change an order unless it is unknown or terminal. -/
def updateLive (orders : Orders) (cloid : ClientOrderId) (update : PendingOrder → PendingOrder) :
    Orders :=
  match orders[cloid]? with
  | none => orders
  | some order => if order.status.isTerminal then orders else orders.insert cloid (update order)

/-- One iteration of the replay loop: the orders and the highest counter seen. -/
def replayEntry : Orders × Option UInt64 → JournalEntry → Orders × Option UInt64
  | (orders, maxCounter), .orderRequested timestampNs cloid request =>
      (orders.insert cloid (pendingOrder cloid request timestampNs),
        match cloid.parseCounter with
        | none => maxCounter
        | some counter => some (maxCounter.elim counter (max · counter)))
  | (orders, maxCounter), .orderAcknowledged timestampNs cloid exchangeId =>
      (updateLive orders cloid fun order =>
        { order with status := .new, exchangeId := some exchangeId, lastUpdatedNs := timestampNs },
        maxCounter)
  | (orders, maxCounter), .orderFilled timestampNs cloid fillQty _ isFinal =>
      (updateLive orders cloid fun order =>
        { order with
          filledQty := order.filledQty + fillQty
          lastUpdatedNs := timestampNs
          status := if isFinal then .filled else .partiallyFilled }, maxCounter)
  | (orders, maxCounter), .orderCancelled timestampNs cloid =>
      (updateLive orders cloid fun order =>
        { order with status := .cancelled, lastUpdatedNs := timestampNs }, maxCounter)
  | (orders, maxCounter), .orderRejected timestampNs cloid _ =>
      (updateLive orders cloid fun order =>
        { order with status := .rejected, lastUpdatedNs := timestampNs }, maxCounter)
  | (orders, maxCounter), .orderExpired timestampNs cloid =>
      (updateLive orders cloid fun order =>
        { order with status := .expired, lastUpdatedNs := timestampNs }, maxCounter)

/-- Rebuild the orders from recovered entries and move the generator past the highest counter. -/
def replayJournal (gw : OrderGateway) (entries : List JournalEntry) : OrderGateway :=
  let (orders, maxCounter) := entries.foldl replayEntry (gw.orders, none)
  { gw with
    orders
    cloidGen := maxCounter.elim gw.cloidGen (.withStartAfter gw.instanceId) }

/-- Open a gateway on the bytes of its journal file. -/
def openFile (instanceId : UInt32) (file : Option (List UInt8)) (script : List IoOutcome) :
    Except Error OrderGateway := do
  let (recovered, journal) ← Journal.openFile file script
  return (fresh instanceId journal).replayJournal recovered

end OrderGateway

/-! ## Runs -/

/-- One call of an operation that changes the gateway. -/
inductive GatewayOp
  | enqueue (request : OrderRequest) (nowNs : Int64)
  | onAck (cloid : ClientOrderId) (exchangeId : UInt64) (nowNs : Int64)
  | onFill (cloid : ClientOrderId) (fillQty fillPrice nowNs : Int64)
  | onCancel (cloid : ClientOrderId) (nowNs : Int64)
  | onReject (cloid : ClientOrderId) (reason : String) (nowNs : Int64)
  | onExpire (cloid : ClientOrderId) (nowNs : Int64)
deriving DecidableEq, Repr

/-- The result of a call; only `enqueue` returns an id. -/
def OrderGateway.exec (gw : OrderGateway) :
    GatewayOp → Except Error (Option ClientOrderId) × OrderGateway
  | .enqueue request nowNs => (gw.enqueue request nowNs).map (Except.map some) id
  | .onAck cloid exchangeId nowNs =>
      (gw.onAck cloid exchangeId nowNs).map (Except.map fun _ => none) id
  | .onFill cloid fillQty fillPrice nowNs =>
      (gw.onFill cloid fillQty fillPrice nowNs).map (Except.map fun _ => none) id
  | .onCancel cloid nowNs => (gw.onCancel cloid nowNs).map (Except.map fun _ => none) id
  | .onReject cloid reason nowNs =>
      (gw.onReject cloid reason nowNs).map (Except.map fun _ => none) id
  | .onExpire cloid nowNs => (gw.onExpire cloid nowNs).map (Except.map fun _ => none) id

/-- The gateway as a machine that answers calls. -/
def gatewayMachine : Machine OrderGateway GatewayOp (Except Error (Option ClientOrderId)) where
  step gw op := (gw.exec op).swap

end TradingConnectivity.Gateway
