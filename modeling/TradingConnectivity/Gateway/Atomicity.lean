import TradingConnectivity.Gateway.Effects

/-! # Failed calls

Placing an order journals the request before it tracks the order, every other call changes its order
before it appends the entry. So a failed append leaves the change behind, and the retry of a failed
fill counts the fill twice. Only a fill of nothing can leave the order as it was.
-/

namespace TradingConnectivity.Gateway

open Machine

namespace GatewayOp

/-- A fill of nothing that repeats the time of the last update of a partially filled order. -/
def IdleFill (op : GatewayOp) (order : PendingOrder) : Prop :=
  match op with
  | .onFill _ fillQty _ nowNs => fillQty = 0 ∧ order.status = .partiallyFilled ∧
      order.filledQty < order.request.qty ∧ order.lastUpdatedNs = nowNs
  | _ => False

end GatewayOp

namespace OrderGateway

variable {gw : OrderGateway} {op : GatewayOp} {cloid : ClientOrderId} {order : PendingOrder}

/-- A failed call leaves the orders as they were, and a failed fill counts once when its retry
succeeds. -/
structure Atomic (gw : OrderGateway) (op : GatewayOp) : Prop where
  unchanged : ∀ e, (gw.exec op).1 = .error e → (gw.exec op).2.orders = gw.orders
  retried : ∀ cloid fillQty fillPrice nowNs, op = .onFill cloid fillQty fillPrice nowNs →
    ∀ e, (gw.exec op).1 = .error e → ∀ order, gw.orders[cloid]? = some order →
      ∀ result, ((gw.exec op).2.exec op).1 = .ok result →
        ∃ filled, ((gw.exec op).2.exec op).2.orders[cloid]? = some filled ∧
          filled.filledQty = order.filledQty + fillQty

/-- If the call is heeded for an order and the append of its entry fails, it is an idle fill. -/
def Harmless (gw : OrderGateway) (op : GatewayOp) : Prop :=
  ∀ order entry e, gw.heeded? op = some order → gw.journaled op = some entry →
    (gw.journal.append entry).1 = .error e → op.IdleFill order

/-- The only call that is heeded and leaves its order as it was is an idle fill. -/
theorem update_eq_self_iff (heeded : gw.heeded? op = some order) :
    op.update order = order ↔ op.IdleFill order := by
  obtain ⟨cloid, named, -, running, unrepeated⟩ := heeded?_eq_some.mp heeded
  have closed (status : OrderStatus) (terminal : status.isTerminal = true) :
      order.status ≠ status := by
    rintro rfl
    rw [terminal] at running
    cases running
  cases op with
  | enqueue request nowNs => cases named
  | onAck id exchangeId nowNs =>
    refine ⟨fun same => ?_, False.elim⟩
    exact unrepeated ⟨rfl, (congrArg PendingOrder.status same).symm⟩
  | onFill id fillQty fillPrice nowNs =>
    constructor
    · intro same
      have sum : order.filledQty + fillQty = order.filledQty :=
        congrArg PendingOrder.filledQty same
      have nothing : fillQty = 0 := by simpa using sum
      have status : (if order.request.qty ≤ order.filledQty + fillQty then OrderStatus.filled
          else .partiallyFilled) = order.status := by
        rw [← fillOrder_status order fillQty nowNs]
        exact congrArg PendingOrder.status same
      split at status
      next => exact absurd status.symm (closed .filled rfl)
      next short =>
        rw [nothing, Int64.add_zero, Int64.not_le] at short
        exact ⟨nothing, status.symm, short, (congrArg PendingOrder.lastUpdatedNs same).symm⟩
    · rintro ⟨rfl, status, short, rfl⟩
      have open_ : ¬order.filledQty ≥ order.request.qty := Int64.not_le.mpr short
      simp only [GatewayOp.update, fillOrder, Int64.add_zero, open_, decide_false,
        Bool.false_eq_true, if_false, ← status]
  | onCancel id nowNs =>
    exact ⟨fun same => closed .cancelled rfl (congrArg PendingOrder.status same).symm, False.elim⟩
  | onReject id reason nowNs =>
    exact ⟨fun same => closed .rejected rfl (congrArg PendingOrder.status same).symm, False.elim⟩
  | onExpire id nowNs =>
    exact ⟨fun same => closed .expired rfl (congrArg PendingOrder.status same).symm, False.elim⟩

private theorem insert_eq_self_iff {orders : Orders} (found : orders[cloid]? = some order)
    {updated : PendingOrder} : orders.insert cloid updated = orders ↔ updated = order := by
  constructor
  · intro same
    have stored : (orders.insert cloid updated)[cloid]? = some updated :=
      Std.ExtTreeMap.getElem?_insert_self
    rw [same, found] at stored
    exact (Option.some.inj stored).symm
  · rintro rfl
    apply Std.ExtTreeMap.ext_getElem?
    intro other
    rw [Std.ExtTreeMap.getElem?_insert]
    split
    next same =>
      obtain rfl := Std.LawfulEqOrd.eq_of_compare same
      exact found.symm
    next => rfl

/-- A fill that succeeds adds its quantity. -/
private theorem filled_of_onFill {fillQty fillPrice nowNs : Int64} {result : Option ClientOrderId}
    (found : gw.orders[cloid]? = some order)
    (success : (gw.exec (.onFill cloid fillQty fillPrice nowNs)).1 = .ok result) :
    ∃ filled, (gw.exec (.onFill cloid fillQty fillPrice nowNs)).2.orders[cloid]? = some filled ∧
      filled.filledQty = order.filledQty + fillQty := by
  cases closed : order.status.isTerminal with
  | true =>
    simp only [exec, onFill, found, closed, if_true] at success
    cases success
  | false =>
    have live : gw.live? cloid = some order := live?_eq_some.mpr ⟨found, closed⟩
    refine ⟨(fillOrder order fillQty nowNs).1, ?_, rfl⟩
    rw [exec, onFill_live live]
    exact Std.ExtTreeMap.getElem?_insert_self

/-- A call is atomic exactly if it is harmless. -/
theorem atomic_iff (gw : OrderGateway) (op : GatewayOp) : gw.Atomic op ↔ gw.Harmless op := by
  constructor
  · rintro ⟨unchanged, -⟩ order entry e heeded journaled failed
    obtain ⟨cloid, written, -, found, same, committed⟩ := exec_heeded heeded
    obtain rfl := Option.some.inj (same.symm.trans journaled)
    have error : (gw.exec op).1 = .error e := by
      rw [committed, commit]
      simp only [Prod.map, failed]
      rfl
    have kept := unchanged e error
    rw [committed] at kept
    exact (update_eq_self_iff heeded).mp ((insert_eq_self_iff found).mp kept)
  · intro harmless
    have unchanged : ∀ e, (gw.exec op).1 = .error e → (gw.exec op).2.orders = gw.orders := by
      intro e error
      cases heeded : gw.heeded? op with
      | none =>
        cases named : op.about with
        | some cloid => rw [(exec_ignored named heeded).2]
        | none =>
          cases op with
          | enqueue request nowNs =>
            rcases gw.exec_enqueue request nowNs with ⟨_, -, same⟩ | ⟨accepted, -⟩
            · exact same
            · rw [accepted] at error
              cases error
          | _ => cases named
      | some order =>
        obtain ⟨cloid, entry, -, found, journaled, committed⟩ := exec_heeded heeded
        cases appended : (gw.journal.append entry).1 with
        | ok done =>
          rw [committed, commit] at error
          simp only [Prod.map, appended] at error
          cases error
        | error failure =>
          have idle := harmless order entry failure heeded journaled appended
          rw [committed]
          exact (insert_eq_self_iff found).mpr ((update_eq_self_iff heeded).mpr idle)
    refine ⟨unchanged, ?_⟩
    rintro cloid fillQty fillPrice nowNs rfl e error order found result success
    have kept := unchanged e error
    rw [← kept] at found
    exact filled_of_onFill found success

end OrderGateway

/-- From whatever gateway a run starts, its calls are atomic exactly if all of them are harmless. -/
theorem calls_atomic_iff (gw : OrderGateway) (calls : List GatewayOp) :
    (∀ event ∈ gatewayMachine.history gw calls, event.before.Atomic event.input) ↔
      ∀ event ∈ gatewayMachine.history gw calls, event.before.Harmless event.input :=
  forall₂_congr fun event _ => event.before.atomic_iff event.input

/-- A gateway on a disk that is full for its second append. -/
def fullDisk : OrderGateway := .fresh 3 ⟨.file [] [] [.written, .failed 0 "disk full"]⟩

/-- A fill of two is kept although its append failed, and its retry makes it four. -/
theorem failed_fill_counts_twice :
    let order := (fullDisk.exec (.enqueue limitOrder 1)).2
    let failed := order.exec (.onFill limitId 2 100 2)
    let retried := failed.2.exec (.onFill limitId 2 100 2)
    failed.1 = .error (.io "disk full") ∧ retried.1 = .ok none ∧
      order.orders[limitId]?.map PendingOrder.filledQty = some 0 ∧
      failed.2.orders[limitId]?.map PendingOrder.filledQty = some 2 ∧
      retried.2.orders[limitId]?.map PendingOrder.filledQty = some 4 ∧
      ¬order.Atomic (.onFill limitId 2 100 2) := by
  intro order failed retried
  have error : failed.1 = .error (.io "disk full") := by decide
  have before : order.orders[limitId]?.map PendingOrder.filledQty = some 0 := by decide
  have after : failed.2.orders[limitId]?.map PendingOrder.filledQty = some 2 := by decide
  refine ⟨error, by decide, before, after, by decide, ?_⟩
  intro atomic
  have unchanged : failed.2.orders = order.orders := atomic.unchanged _ error
  rw [unchanged, before] at after
  cases after

end TradingConnectivity.Gateway
