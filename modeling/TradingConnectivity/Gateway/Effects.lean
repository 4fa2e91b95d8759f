import TradingConnectivity.Gateway.Replay

/-! # The effect of a call on its order

Every lifecycle call is about one order. It is heeded if this order is live and the call is not a
repeated acknowledgement; a heeded call stores the updated order and appends its entry, any other
call leaves the gateway alone.
-/

namespace TradingConnectivity.Gateway

namespace GatewayOp

/-- The order a lifecycle call is about. -/
def about : GatewayOp → Option ClientOrderId
  | .enqueue .. => none
  | .onAck cloid .. | .onFill cloid .. | .onCancel cloid .. | .onReject cloid .. |
    .onExpire cloid .. => some cloid

def isAck : GatewayOp → Bool
  | .onAck .. => true
  | _ => false

/-- What a heeded call makes of its order. -/
def update (op : GatewayOp) (order : PendingOrder) : PendingOrder :=
  match op with
  | .enqueue .. => order
  | .onAck _ exchangeId nowNs =>
      { order with exchangeId := some exchangeId, status := .new, lastUpdatedNs := nowNs }
  | .onFill _ fillQty _ nowNs => (OrderGateway.fillOrder order fillQty nowNs).1
  | .onCancel _ nowNs => { order with status := .cancelled, lastUpdatedNs := nowNs }
  | .onReject _ _ nowNs => { order with status := .rejected, lastUpdatedNs := nowNs }
  | .onExpire _ nowNs => { order with status := .expired, lastUpdatedNs := nowNs }

theorem update_request (op : GatewayOp) (order : PendingOrder) :
    (op.update order).request = order.request := by cases op <;> rfl

end GatewayOp

namespace OrderGateway

variable {gw : OrderGateway} {op : GatewayOp} {cloid : ClientOrderId} {order : PendingOrder}

theorem fillOrder_status (order : PendingOrder) (fillQty nowNs : Int64) :
    (fillOrder order fillQty nowNs).1.status =
      if order.request.qty ≤ order.filledQty + fillQty then .filled else .partiallyFilled := by
  simp only [fillOrder, decide_eq_true_eq, ge_iff_le]

/-- The order a call is about, if the call is heeded. -/
def heeded? (gw : OrderGateway) (op : GatewayOp) : Option PendingOrder :=
  match op.about.bind gw.live? with
  | none => none
  | some order => if op.isAck ∧ order.status = .new then none else some order

theorem heeded?_eq_some : gw.heeded? op = some order ↔ ∃ cloid, op.about = some cloid ∧
    gw.orders[cloid]? = some order ∧ order.status.isTerminal = false ∧
      ¬(op.isAck ∧ order.status = .new) := by
  unfold heeded?
  cases named : op.about with
  | none => simp
  | some cloid =>
    rw [Option.bind_some]
    cases live : gw.live? cloid with
    | none =>
      refine ⟨nofun, ?_⟩
      rintro ⟨_, ⟨⟩, found, running, -⟩
      rw [live?_eq_some.mpr ⟨found, running⟩] at live
      cases live
    | some known =>
      obtain ⟨found, running⟩ := live?_eq_some.mp live
      simp only [Option.ite_none_left_eq_some, Option.some.injEq]
      constructor
      · rintro ⟨heeded, rfl⟩
        exact ⟨cloid, rfl, found, running, heeded⟩
      · rintro ⟨_, rfl, same, -, heeded⟩
        obtain rfl := Option.some.inj (found.symm.trans same)
        exact ⟨heeded, rfl⟩

/-- A heeded call commits the updated order together with the entry it journals. -/
theorem exec_heeded (heeded : gw.heeded? op = some order) :
    ∃ cloid entry, op.about = some cloid ∧ gw.orders[cloid]? = some order ∧
      gw.journaled op = some entry ∧
      gw.exec op = (gw.commit cloid (op.update order) entry).map (Except.map fun _ => none) id := by
  obtain ⟨cloid, named, found, running, unrepeated⟩ := heeded?_eq_some.mp heeded
  have live : gw.live? cloid = some order := live?_eq_some.mpr ⟨found, running⟩
  cases op with
  | enqueue request nowNs => cases named
  | onAck id exchangeId nowNs =>
    obtain rfl := Option.some.inj named
    have unacked : order.status ≠ .new := fun acked => unrepeated ⟨rfl, acked⟩
    refine ⟨id, .orderAcknowledged nowNs id exchangeId, rfl, found, ?_, ?_⟩
    · simp only [journaled, live, Option.bind_some, unacked, if_false]
    · rw [exec, onAck_live live unacked]
      rfl
  | onFill id fillQty fillPrice nowNs =>
    obtain rfl := Option.some.inj named
    exact ⟨id, _, rfl, found, by rw [journaled, live]; rfl,
      by rw [exec, onFill_live live]; rfl⟩
  | onCancel id nowNs =>
    obtain rfl := Option.some.inj named
    exact ⟨id, _, rfl, found, by rw [journaled, live]; rfl,
      by rw [exec, onCancel_live live]; rfl⟩
  | onReject id reason nowNs =>
    obtain rfl := Option.some.inj named
    exact ⟨id, _, rfl, found, by rw [journaled, live]; rfl,
      by rw [exec, onReject, close_live live]; rfl⟩
  | onExpire id nowNs =>
    obtain rfl := Option.some.inj named
    exact ⟨id, _, rfl, found, by rw [journaled, live]; rfl,
      by rw [exec, onExpire, close_live live]; rfl⟩

/-- A call that is not heeded changes nothing. -/
theorem exec_ignored (named : op.about = some cloid) (ignored : gw.heeded? op = none) :
    gw.journaled op = none ∧ (gw.exec op).2 = gw := by
  cases live : gw.live? cloid with
  | none =>
    cases op with
    | enqueue request nowNs => cases named
    | onAck id exchangeId nowNs =>
      obtain rfl := Option.some.inj named
      exact ⟨by rw [journaled, live]; rfl, onAck_dead live _ _⟩
    | onFill id fillQty fillPrice nowNs =>
      obtain rfl := Option.some.inj named
      exact ⟨by rw [journaled, live]; rfl, onFill_dead live _ _ _⟩
    | onCancel id nowNs =>
      obtain rfl := Option.some.inj named
      exact ⟨by rw [journaled, live]; rfl, onCancel_dead live _⟩
    | onReject id reason nowNs =>
      obtain rfl := Option.some.inj named
      exact ⟨by rw [journaled, live]; rfl, close_dead live _ _ _⟩
    | onExpire id nowNs =>
      obtain rfl := Option.some.inj named
      exact ⟨by rw [journaled, live]; rfl, close_dead live _ _ _⟩
  | some order =>
    rw [heeded?, named, Option.bind_some, live] at ignored
    have repeated : op.isAck ∧ order.status = .new := by
      by_contra unrepeated
      simp only [if_neg unrepeated] at ignored
      cases ignored
    obtain ⟨acknowledges, acked⟩ := repeated
    cases op with
    | onAck id exchangeId nowNs =>
      obtain rfl := Option.some.inj named
      have found := (live?_eq_some.mp live).1
      exact ⟨by simp only [journaled, live, Option.bind_some, acked, if_true],
        by simp only [exec, onAck, found, acked, if_true]; rfl⟩
    | _ => cases acknowledges

/-- Issuing an id tracks the order if the request was journaled. -/
theorem exec_enqueue (gw : OrderGateway) (request : OrderRequest) (nowNs : Int64) :
    (∃ e, (gw.exec (.enqueue request nowNs)).1 = .error e ∧
      (gw.exec (.enqueue request nowNs)).2.orders = gw.orders) ∨
    (gw.exec (.enqueue request nowNs)).1 = .ok (some gw.cloidGen.generate.1) ∧
      (gw.exec (.enqueue request nowNs)).2.orders = gw.orders.insert gw.cloidGen.generate.1
        (pendingOrder gw.cloidGen.generate.1 request nowNs) := by
  rcases appended : gw.journal.append (.orderRequested nowNs gw.cloidGen.generate.1 request) with
    ⟨result, journal⟩
  cases result with
  | error e =>
    exact .inl ⟨e, by simp only [exec, enqueue, appended, Prod.map]; rfl,
      by simp only [exec, enqueue, appended, Prod.map, id]⟩
  | ok done =>
    exact .inr ⟨by simp only [exec, enqueue, appended, Prod.map]; rfl,
      by simp only [exec, enqueue, appended, Prod.map, id]⟩

/-- The three effects of a call on the tracked orders. -/
theorem exec_orders (gw : OrderGateway) (op : GatewayOp) :
    (gw.exec op).2.orders = gw.orders ∨
    (∃ request nowNs, op = .enqueue request nowNs ∧
      (gw.exec op).2.orders = gw.orders.insert gw.cloidGen.generate.1
        (pendingOrder gw.cloidGen.generate.1 request nowNs)) ∨
    ∃ cloid order, gw.heeded? op = some order ∧ gw.orders[cloid]? = some order ∧
      (gw.exec op).2.orders = gw.orders.insert cloid (op.update order) := by
  cases named : op.about with
  | none =>
    cases op with
    | enqueue request nowNs =>
      rcases gw.exec_enqueue request nowNs with ⟨e, -, same⟩ | ⟨-, tracked⟩
      · exact .inl same
      · exact .inr (.inl ⟨request, nowNs, rfl, tracked⟩)
    | _ => cases named
  | some cloid =>
    cases heeded : gw.heeded? op with
    | none => exact .inl (by rw [(exec_ignored named heeded).2])
    | some order =>
      obtain ⟨cloid, entry, -, found, -, committed⟩ := exec_heeded heeded
      exact .inr (.inr ⟨cloid, order, rfl, found, by rw [committed]; rfl⟩)

end OrderGateway

def limitOrder : OrderRequest where
  symbol := "BTCUSDT"
  side := .buy
  orderType := .limit
  qty := 5
  limitPrice := some 100
  timeInForce := .goodTillCancel

/-- The id of the first order of instance 3. -/
def limitId : ClientOrderId := ⟨"cc-0003-0000000000000000"⟩

end TradingConnectivity.Gateway
