import TradingConnectivity.Gateway.Effects
import TradingConnectivity.ToMathlib.Overwrite

/-! # Status and filled quantity

The status of an order is recomputed from its filled quantity by a fill and overwritten by every
other call. The two stay consistent as long as no acknowledgement arrives for an order that already
has fills and no sum of fills leaves the range of the quantity.
-/

namespace TradingConnectivity.Gateway

open Machine

/-- The status says how much of the order is filled. -/
structure PendingOrder.Consistent (order : PendingOrder) : Prop where
  unfilled : order.status = .pending ∨ order.status = .new → order.filledQty = 0
  partly : order.status = .partiallyFilled →
    0 < order.filledQty ∧ order.filledQty < order.request.qty
  filled : order.status = .filled → order.request.qty ≤ order.filledQty
  closed : order.status = .cancelled ∨ order.status = .rejected ∨ order.status = .expired →
    order.filledQty < order.request.qty

/-- All tracked orders satisfy a predicate. -/
def OrderGateway.AllOrders (gw : OrderGateway) (P : PendingOrder → Prop) : Prop :=
  ∀ (cloid : ClientOrderId) (order : PendingOrder), gw.orders[cloid]? = some order → P order

namespace GatewayOp

/-- Requests and fills have positive quantities. -/
def Positive : GatewayOp → Prop
  | .enqueue request _ => 0 < request.qty
  | .onFill _ fillQty _ _ => 0 < fillQty
  | _ => True

/-- A call that is heeded for an order keeps its status and its filled quantity together: an
acknowledgement finds no fills, and a fill does not overflow the filled quantity. -/
def Tame (op : GatewayOp) (order : PendingOrder) : Prop :=
  match op with
  | .onAck .. => order.filledQty = 0
  | .onFill _ fillQty _ _ => order.filledQty.toInt + fillQty.toInt < 2 ^ 63
  | _ => True

instance (op : GatewayOp) (order : PendingOrder) : Decidable (op.Tame order) :=
  match op with
  | .onAck .. => inferInstanceAs (Decidable (order.filledQty = 0))
  | .onFill _ fillQty _ _ =>
    inferInstanceAs (Decidable (order.filledQty.toInt + fillQty.toInt < 2 ^ 63))
  | .enqueue .. | .onCancel .. | .onReject .. | .onExpire .. => .isTrue trivial

end GatewayOp

/-- What is true of every order of a gateway whose requests have positive quantities. -/
structure PendingOrder.Placed (order : PendingOrder) : Prop where
  positive : 0 < order.request.qty
  uncancelling : order.status ≠ .cancelling

namespace GatewayOp

variable {op : GatewayOp} {order : PendingOrder}

private theorem update_placed (placed : order.Placed) : (op.update order).Placed := by
  refine ⟨by rw [update_request]; exact placed.positive, ?_⟩
  cases op with
  | enqueue request nowNs => exact placed.uncancelling
  | onFill cloid fillQty fillPrice nowNs =>
    rw [update, OrderGateway.fillOrder_status]
    split <;> exact nofun
  | _ => exact nofun

/-- An open order has been filled by less than its quantity. -/
theorem filled_of_live (placed : order.Placed) (consistent : order.Consistent)
    (running : order.status.isTerminal = false) :
    0 ≤ order.filledQty.toInt ∧ order.filledQty < order.request.qty := by
  have positive := placed.positive
  have zero := Int64.toInt_zero
  cases status : order.status with
  | pending =>
    rw [consistent.unfilled (.inl status)]
    exact ⟨le_rfl, positive⟩
  | new =>
    rw [consistent.unfilled (.inr status)]
    exact ⟨le_rfl, positive⟩
  | partiallyFilled =>
    obtain ⟨some, part⟩ := consistent.partly status
    rw [Int64.lt_iff_toInt_lt, zero] at some
    exact ⟨by omega, part⟩
  | cancelling => exact absurd status placed.uncancelling
  | _ =>
    rw [status] at running
    cases running

/-- A fill of an open order leaves a consistent order exactly if the sum is in range: a sum that
wraps around is negative, and the order counts as partially filled. -/
theorem fillOrder_consistent_iff (wanted : 0 < order.request.qty)
    (some : 0 ≤ order.filledQty.toInt) {fillQty : Int64} (more : 0 < fillQty) (nowNs : Int64) :
    (OrderGateway.fillOrder order fillQty nowNs).1.Consistent ↔
      order.filledQty.toInt + fillQty.toInt < 2 ^ 63 := by
  have zero := Int64.toInt_zero
  have status := OrderGateway.fillOrder_status order fillQty nowNs
  have sum : (OrderGateway.fillOrder order fillQty nowNs).1.filledQty =
      order.filledQty + fillQty := rfl
  rw [Int64.lt_iff_toInt_lt, zero] at wanted more
  constructor
  · intro after
    by_contra overflows
    have wrapped := Int64.toInt_add_neg_of_overflow (Int.not_lt.mp overflows)
    have short : ¬order.request.qty ≤ order.filledQty + fillQty := by
      rw [Int64.le_iff_toInt_le]
      omega
    rw [if_neg short] at status
    have low := (after.partly status).1
    rw [sum, Int64.lt_iff_toInt_lt, zero] at low
    omega
  · intro fits
    have exactly : (order.filledQty + fillQty).toInt = _ :=
      Int64.toInt_add_of_bounds (by omega) fits
    by_cases complete : order.request.qty ≤ order.filledQty + fillQty
    · rw [if_pos complete] at status
      refine ⟨?_, ?_, fun _ => complete, ?_⟩ <;> rw [status] <;> nofun
    · rw [if_neg complete] at status
      have positive : 0 < order.filledQty + fillQty := by
        rw [Int64.lt_iff_toInt_lt, zero]
        omega
      refine ⟨?_, fun _ => ⟨positive, Int64.not_le.mp complete⟩, ?_, ?_⟩ <;> rw [status] <;> nofun

/-- An order that was closed before it was filled is consistent. -/
private theorem closed_consistent (part : order.filledQty < order.request.qty)
    {target : OrderStatus}
    (closing : target = .cancelled ∨ target = .rejected ∨ target = .expired) (nowNs : Int64) :
    PendingOrder.Consistent { order with status := target, lastUpdatedNs := nowNs } := by
  refine ⟨?_, ?_, ?_, fun _ => part⟩ <;> rcases closing with rfl | rfl | rfl <;> nofun

/-- A heeded call about a consistent order leaves a consistent order exactly if it is tame. -/
theorem update_consistent_iff (placed : order.Placed) (consistent : order.Consistent)
    (running : order.status.isTerminal = false) (positive : op.Positive) :
    (op.update order).Consistent ↔ op.Tame order := by
  obtain ⟨some, part⟩ := filled_of_live placed consistent running
  cases op with
  | enqueue request nowNs => exact ⟨fun _ => trivial, fun _ => consistent⟩
  | onAck cloid exchangeId nowNs =>
    constructor
    · intro after
      exact after.unfilled (.inr rfl)
    · intro unfilled
      exact ⟨fun _ => unfilled, nofun, nofun, nofun⟩
  | onFill cloid fillQty fillPrice nowNs =>
    exact fillOrder_consistent_iff placed.positive some positive nowNs
  | onCancel cloid nowNs =>
    exact ⟨fun _ => trivial, fun _ => closed_consistent part (.inl rfl) nowNs⟩
  | onReject cloid reason nowNs =>
    exact ⟨fun _ => trivial, fun _ => closed_consistent part (.inr (.inl rfl)) nowNs⟩
  | onExpire cloid nowNs =>
    exact ⟨fun _ => trivial, fun _ => closed_consistent part (.inr (.inr rfl)) nowNs⟩

end GatewayOp

/-! ## Runs -/

namespace OrderGateway

variable {gw : OrderGateway} {op : GatewayOp}

theorem AllOrders.insert {P : PendingOrder → Prop} (all : gw.AllOrders P) {after : OrderGateway}
    {id : ClientOrderId} {updated : PendingOrder} (holds : P updated)
    (orders : after.orders = gw.orders.insert id updated) : after.AllOrders P := by
  intro cloid order found
  rw [orders] at found
  rcases of_getElem?_insert found with ⟨-, rfl⟩ | stored
  · exact holds
  · exact all cloid order stored

theorem AllOrders.of_eq {P : PendingOrder → Prop} (all : gw.AllOrders P) {after : OrderGateway}
    (orders : after.orders = gw.orders) : after.AllOrders P := by
  intro cloid order found
  rw [orders] at found
  exact all cloid order found

private theorem pendingOrder_placed {request : OrderRequest} (positive : 0 < request.qty)
    (cloid : ClientOrderId) (nowNs : Int64) : (pendingOrder cloid request nowNs).Placed :=
  ⟨positive, nofun⟩

private theorem pendingOrder_consistent (cloid : ClientOrderId) (request : OrderRequest)
    (nowNs : Int64) :
    (pendingOrder cloid request nowNs).Consistent := ⟨fun _ => rfl, nofun, nofun, nofun⟩

/-- Placed orders stay placed. -/
theorem placed_next (placed : gw.AllOrders PendingOrder.Placed) (positive : op.Positive) :
    (gatewayMachine.next gw op).AllOrders PendingOrder.Placed := by
  rcases gw.exec_orders op with same | ⟨request, nowNs, rfl, tracked⟩ |
      ⟨cloid, order, -, found, updated⟩
  · exact placed.of_eq same
  · exact placed.insert (pendingOrder_placed positive _ _) tracked
  · exact placed.insert (GatewayOp.update_placed (placed cloid order found)) updated

/-- From a consistent gateway a call leads to a consistent one exactly if it is tame. -/
theorem consistent_next_iff (placed : gw.AllOrders PendingOrder.Placed)
    (consistent : gw.AllOrders PendingOrder.Consistent) (positive : op.Positive) :
    (gatewayMachine.next gw op).AllOrders PendingOrder.Consistent ↔
      ∀ order, gw.heeded? op = some order → op.Tame order := by
  have step {cloid : ClientOrderId} {order : PendingOrder} (heeded : gw.heeded? op = some order)
      (found : gw.orders[cloid]? = some order) :
      (op.update order).Consistent ↔ op.Tame order := by
    obtain ⟨_, -, -, running, -⟩ := heeded?_eq_some.mp heeded
    exact GatewayOp.update_consistent_iff (placed cloid order found) (consistent cloid order found)
      running positive
  constructor
  · intro after order heeded
    obtain ⟨cloid, entry, -, found, -, committed⟩ := exec_heeded heeded
    apply (step heeded found).mp
    apply after cloid
    change (gw.exec op).2.orders[cloid]? = _
    rw [committed]
    exact Std.ExtTreeMap.getElem?_insert_self
  · intro tame
    rcases gw.exec_orders op with same | ⟨request, nowNs, rfl, tracked⟩ |
        ⟨cloid, order, heeded, found, updated⟩
    · exact consistent.of_eq same
    · exact consistent.insert (pendingOrder_consistent _ _ _) tracked
    · exact consistent.insert ((step heeded found).mpr (tame order heeded)) updated

end OrderGateway

/-- Every state that a run reaches from an empty gateway has consistent orders exactly if every call
that is heeded is tame. -/
theorem status_consistent_iff (instanceId : UInt32) (journal : Journal) {calls : List GatewayOp}
    (positive : ∀ op ∈ calls, op.Positive) :
    (∀ earlier later, calls = earlier ++ later →
      (gatewayMachine.final (.fresh instanceId journal) earlier).AllOrders
        PendingOrder.Consistent) ↔
    ∀ event ∈ gatewayMachine.history (.fresh instanceId journal) calls, ∀ order,
      event.before.heeded? event.input = some order → event.input.Tame order := by
  have empty (P : PendingOrder → Prop) :
      (OrderGateway.fresh instanceId journal).AllOrders P := by
    intro cloid order found
    have absent : (OrderGateway.fresh instanceId journal).orders[cloid]? = none :=
      Std.ExtTreeMap.getElem?_empty
    rw [absent] at found
    cases found
  have kept (gw : OrderGateway) (op : GatewayOp) (placed : gw.AllOrders PendingOrder.Placed)
      (positive : op.Positive) : (gatewayMachine.next gw op).AllOrders PendingOrder.Placed :=
    OrderGateway.placed_next placed positive
  have step (gw : OrderGateway) (op : GatewayOp) (placed : gw.AllOrders PendingOrder.Placed)
      (consistent : gw.AllOrders PendingOrder.Consistent) (positive : op.Positive) :
      (gatewayMachine.next gw op).AllOrders PendingOrder.Consistent ↔
        ∀ order, gw.heeded? op = some order → op.Tame order :=
    OrderGateway.consistent_next_iff placed consistent positive
  exact gatewayMachine.safe_iff kept step (empty _) (empty _) positive

/-- An order that is acknowledged before it is filled stays consistent, and one that is acknowledged
afterwards does not. -/
theorem status_consistent_iff_filled :
    (∀ earlier later, [GatewayOp.enqueue limitOrder 1, .onAck limitId 9 2,
        .onFill limitId 2 100 3, .onFill limitId 3 100 4] = earlier ++ later →
      (gatewayMachine.final (.fresh 3 .inMemory) earlier).AllOrders PendingOrder.Consistent) ∧
    ¬∀ earlier later, [GatewayOp.enqueue limitOrder 1, .onFill limitId 2 100 2,
        .onAck limitId 9 3] = earlier ++ later →
      (gatewayMachine.final (.fresh 3 .inMemory) earlier).AllOrders PendingOrder.Consistent := by
  constructor
  · refine (status_consistent_iff 3 .inMemory ?_).mpr ?_
    · simp only [List.forall_mem_cons, GatewayOp.Positive]
      exact ⟨by decide, trivial, by decide, by decide,
        fun _ member => absurd member List.not_mem_nil⟩
    · have tame : ∀ event ∈ gatewayMachine.history (.fresh 3 .inMemory)
          [GatewayOp.enqueue limitOrder 1, .onAck limitId 9 2, .onFill limitId 2 100 3,
            .onFill limitId 3 100 4],
          ∀ order ∈ event.before.heeded? event.input, event.input.Tame order := by decide
      exact tame
  · intro consistent
    have tame := (status_consistent_iff 3 .inMemory (by
      simp only [List.forall_mem_cons, GatewayOp.Positive]
      exact ⟨by decide, by decide, trivial, fun _ member => absurd member List.not_mem_nil⟩)).mp
        consistent
    have untame : ¬∀ event ∈ gatewayMachine.history (.fresh 3 .inMemory)
        [GatewayOp.enqueue limitOrder 1, .onFill limitId 2 100 2, .onAck limitId 9 3],
        ∀ order ∈ event.before.heeded? event.input, event.input.Tame order := by decide
    exact untame tame

/-- An acknowledgement that arrives after a fill sets the order back to new, with two units
filled. -/
theorem acked_after_fill : ¬∀ earlier later, [GatewayOp.enqueue limitOrder 1,
    .onFill limitId 2 100 2, .onAck limitId 9 3] = earlier ++ later →
      (gatewayMachine.final (.fresh 3 .inMemory) earlier).AllOrders PendingOrder.Consistent := by
  intro consistent
  have order : (gatewayMachine.final (.fresh 3 .inMemory) [.enqueue limitOrder 1,
      .onFill limitId 2 100 2, .onAck limitId 9 3]).orders[limitId]? =
      some ⟨limitId, limitOrder, .new, some 9, 2, 1, 3⟩ := by decide
  have unfilled := (consistent _ [] (List.append_nil _).symm limitId _ order).unfilled (.inr rfl)
  exact absurd unfilled (by decide)

end TradingConnectivity.Gateway
