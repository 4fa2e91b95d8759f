import TradingConnectivity.Lifecycle.Waiting
import TradingConnectivity.Reconcile.Reconciler

/-! # Status checks

An order whose status is unknown is resolved by its REST record, which the reconciler turns into an
input of the state machine. A filled order takes over the fetched trades and the fills kept so far.
A cancelled or expired one is closed with what the gateway has counted, which is nothing: the fills
kept so far are dropped.
-/

namespace TradingConnectivity.Reconcile

open Gateway (ClientOrderId OrderGateway OrderRequest)
open Lifecycle

/-- What the exchange tells about an order that is over: its record, and its trades, which make up
the executed quantity. -/
structure ExchangeView (rec : Reconciler) (raw : RawRestOrder) (rawTrades : List RawRestTrade)
    (request : OrderRequest) (executed : Int64) (trades : List Trade) : Prop where
  final : RestOrderStatus.fromRaw raw.status ∈
    [RestOrderStatus.filled, .canceled, .expired, .expiredInMatch]
  executed_eq : parseScaled raw.executedQty (rec.scalesFor raw.symbol).qtyScale = pure executed
  trades_eq : rec.parseFills rawTrades = pure trades
  distinct : (trades.map Trade.tradeId).Nodup
  positive : ∀ trade ∈ trades, 0 < trade.fillQty
  total : intTotal (trades.map Trade.fill) = executed.toInt
  below : executed ≤ request.qty
  complete : RestOrderStatus.fromRaw raw.status = .filled → executed = request.qty

/-- The gateway has counted the executed quantity of an order, or the engine still tracks it. -/
def Accounted (client : Client) (cloid : ClientOrderId) (raw : RawRestOrder)
    (executed : Int64) : Prop :=
  (∃ order, client.gateway.orders[cloid]? = some order ∧ order.filledQty = executed ∧
      (RestOrderStatus.fromRaw raw.status = .filled → order.status = .filled)) ∨
    client.engine.isTracked cloid = true

private theorem accounted_iff_of_untracked {client : Client} {cloid : ClientOrderId}
    {raw : RawRestOrder}
    {executed : Int64} {order : Gateway.PendingOrder}
    (untracked : client.engine.isTracked cloid = false)
    (found : client.gateway.orders[cloid]? = some order) :
    Accounted client cloid raw executed ↔ order.filledQty = executed ∧
      (RestOrderStatus.fromRaw raw.status = .filled → order.status = .filled) := by
  simp only [Accounted, untracked, found, Option.some.injEq, Bool.false_eq_true, or_false,
    exists_eq_left']

namespace Reconciler

variable {rec : Reconciler} {raw : RawRestOrder} {rawTrades : List RawRestTrade}
  {asked : Option (List RawRestTrade)} {trades : List Trade}

/-- The outcome for a filled order carries the trades that were asked for. -/
private theorem reconcileOrderStatus_filled (filled : RestOrderStatus.fromRaw raw.status = .filled)
    (parsed : rec.parseFills rawTrades = pure trades)
    (documented : asked = none ∨ asked = some rawTrades) :
    rec.reconcileOrderStatus raw asked =
      pure (.filled raw.orderId (if asked = none then [] else trades)) := by
  rcases documented with rfl | rfl
  · rw [reconcileOrderStatus, filled]
    rfl
  · simp only [reconcileOrderStatus, filled, parsed, reduceCtorEq, if_false]
    rfl

/-- The outcome for an order that ended otherwise closes it. -/
private theorem reconcileOrderStatus_closed (asked : Option (List RawRestTrade))
    (final : RestOrderStatus.fromRaw raw.status ∈
      [RestOrderStatus.filled, .canceled, .expired, .expiredInMatch])
    (other : RestOrderStatus.fromRaw raw.status ≠ .filled) (nowNs : Int64) :
    ∃ outcome target action, rec.reconcileOrderStatus raw asked = pure outcome ∧
      reaction .unknownStatus (.statusCheckResult outcome nowNs) = .close target action := by
  simp only [List.mem_cons, List.not_mem_nil, or_false] at final
  rcases final with status | status | status | status
  · exact absurd status other
  · exact ⟨.cancelled raw.orderId, .cancelled, .applyCancel,
      by rw [reconcileOrderStatus, status], rfl⟩
  · exact ⟨.expired raw.orderId, .expired, .applyExpire, by rw [reconcileOrderStatus, status], rfl⟩
  · exact ⟨.expired raw.orderId, .expired, .applyExpire, by rw [reconcileOrderStatus, status], rfl⟩

end Reconciler

namespace ExchangeView

variable {rec : Reconciler} {raw : RawRestOrder} {rawTrades : List RawRestTrade}
  {request : OrderRequest} {executed : Int64} {trades heard : List Trade}

/-- Trades heard of stay within the order's quantity, and make up the executed quantity exactly if
they are all there are. -/
theorem total_heard (view : ExchangeView rec raw rawTrades request executed trades)
    (inside : heard ⊆ trades) :
    Payable request.qty heard ∧
      (totalQty ((heard.firstBy Trade.tradeId).map Trade.fill) = executed ↔ trades ⊆ heard) := by
  obtain ⟨missing, perm, covered⟩ := List.exists_missing view.distinct inside
  have fills : (trades.map Trade.fill).Perm
      ((heard.firstBy Trade.tradeId).map Trade.fill ++ missing.map Trade.fill) := by
    rw [← List.map_append]
    exact perm.map _
  have positive : ∀ f ∈ trades.map Trade.fill, 0 < f.fillQty := by
    intro f member
    obtain ⟨trade, inside, rfl⟩ := List.mem_map.mp member
    exact view.positive trade inside
  obtain ⟨within, same⟩ := totalQty_eq_iff
    (fun f member => positive f (fills.mem_iff.mpr member))
    ((intTotal_perm fills).symm.trans view.total) view.below
  rw [List.map_eq_nil_iff, covered] at same
  exact ⟨within, same⟩

variable {client : Client} {cloid : ClientOrderId} {timeoutNs : Int64} {sm : OrderSm}
  {order : Gateway.PendingOrder} {reported fetched : List Trade} {emitted : List BufferedFill}
  {applied held : List Trade}

/-- A check that found the order filled accounts for it exactly if something was executed and every
trade is known. -/
theorem accounted_filled (view : ExchangeView rec raw rawTrades request executed trades)
    (filled : RestOrderStatus.fromRaw raw.status = .filled)
    (follows : Follows client cloid timeoutNs sm order)
    (ledger : Ledger sm reported emitted applied held) (unknown : sm.status = .unknownStatus)
    (qty_eq : sm.totalQty = request.qty) (inside : reported ++ fetched ⊆ trades)
    (checkNs dispatchNs : Int64) :
    Accounted
        (clientMachine.next client
          (.process cloid (.statusCheckResult (.filled raw.orderId fetched) checkNs), dispatchNs))
        cloid raw executed ↔ executed ≠ 0 ∧ trades ⊆ reported ++ fetched := by
  obtain ⟨payable, all⟩ := view.total_heard inside
  rw [← qty_eq] at payable
  obtain ⟨untracked, after, found, quantity, status⟩ :=
    follows.fetched ledger unknown payable raw.orderId checkNs dispatchNs
  rw [accounted_iff_of_untracked untracked found, quantity, all]
  constructor
  · rintro ⟨covered, closes⟩
    refine ⟨?_, covered⟩
    rintro rfl
    have total := all.mpr covered
    by_cases none : ((reported ++ fetched).firstBy Trade.tradeId).map Trade.fill = []
    · rw [status, if_pos none] at closes
      cases closes filled
    · have counted := Within.totalQty_pos payable none
      rw [total] at counted
      exact Int64.lt_irrefl counted
  · rintro ⟨some, covered⟩
    refine ⟨covered, fun _ => ?_⟩
    have total := all.mpr covered
    have heard : ((reported ++ fetched).firstBy Trade.tradeId).map Trade.fill ≠ [] := by
      intro none
      rw [none, totalQty_nil] at total
      exact some total.symm
    have complete : executed = sm.totalQty := (view.complete filled).trans qty_eq.symm
    rw [status, if_neg heard, total, complete, if_pos Int64.le_rfl]

/-- A check that closes the order accounts for it exactly if nothing was executed. -/
theorem accounted_closed (other : RestOrderStatus.fromRaw raw.status ≠ .filled)
    (follows : Follows client cloid timeoutNs sm order) (unknown : sm.status = .unknownStatus)
    (none : order.filledQty = 0) {outcome : StatusCheckOutcome} {checkNs : Int64}
    {target : SmStatus} {action : SmAction}
    (reacts : reaction .unknownStatus (.statusCheckResult outcome checkNs) = .close target action)
    (dispatchNs : Int64) :
    Accounted
        (clientMachine.next client
          (.process cloid (.statusCheckResult outcome checkNs), dispatchNs))
        cloid raw executed ↔ executed = 0 := by
  have running : sm.status.isTerminal = false := by rw [unknown]; rfl
  rw [← unknown] at reacts
  obtain ⟨untracked, after, found, quantity⟩ := follows.closed running reacts dispatchNs
  rw [accounted_iff_of_untracked untracked found, quantity, none]
  constructor
  · rintro ⟨same, _⟩
    exact same.symm
  · rintro rfl
    exact ⟨rfl, fun filled => absurd filled other⟩

end ExchangeView

/-- A final REST record resolves an order of unknown status. The gateway then has counted the
executed quantity, unless the engine still tracks the order, exactly if the order ended unfilled
with nothing executed, or was filled and every trade is known from the fetched trades or from
execution reports. -/
theorem status_check_accounts_iff (engine : StateMachineEngine) {gw : OrderGateway}
    (reliable : gw.journal.Reliable) (request : OrderRequest) (nowNs submittedNs : Int64)
    {calls : List (EngineOp × Int64)}
    (lifetime : ∀ op ∈ calls.map Prod.fst, op.Spares gw.cloidGen.generate.1)
    (unknown : (lastState engine.timeoutNs gw.cloidGen.generate.1 request.qty submittedNs
      (calls.map Prod.fst)).status = .unknownStatus)
    {rec : Reconciler} {raw : RawRestOrder} {rawTrades : List RawRestTrade} {executed : Int64}
    {trades : List Trade} (view : ExchangeView rec raw rawTrades request executed trades)
    (reported : deliveredTrades (inputsFor gw.cloidGen.generate.1 (calls.map Prod.fst)) ⊆ trades)
    {asked : Option (List RawRestTrade)} (documented : asked = none ∨ asked = some rawTrades)
    (checkNs dispatchNs : Int64) :
    let cloid := gw.cloidGen.generate.1
    let start : Client :=
      ⟨engine.track cloid request.qty submittedNs, (gw.enqueue request nowNs).2⟩
    ∃ outcome, rec.reconcileOrderStatus raw asked = pure outcome ∧
      (Accounted
          (clientMachine.next (clientMachine.final start calls)
            (.process cloid (.statusCheckResult outcome checkNs), dispatchNs))
          cloid raw executed ↔
        RestOrderStatus.fromRaw raw.status ≠ .filled ∧ executed = 0 ∨
          RestOrderStatus.fromRaw raw.status = .filled ∧ executed ≠ 0 ∧
            (asked = some rawTrades ∨
              trades ⊆ deliveredTrades (inputsFor cloid (calls.map Prod.fst)))) := by
  intro cloid start
  have holds := (Holds.enqueue reliable request nowNs).2
  have starts : Follows start cloid engine.timeoutNs (.new cloid request.qty submittedNs)
      (OrderGateway.pendingOrder cloid request nowNs) :=
    ⟨tracks_track engine request.qty submittedNs, holds, rfl, rfl, rfl⟩
  obtain ⟨follows, emitted, applied, held, ledger⟩ := starts.run_waiting
    (Ledger.start cloid request.qty submittedNs) lifetime (SmStatus.waits_iff.mpr (.inr unknown))
  rw [List.nil_append] at ledger
  by_cases filled : RestOrderStatus.fromRaw raw.status = .filled
  · refine ⟨_, Reconciler.reconcileOrderStatus_filled filled view.trades_eq documented, ?_⟩
    have qty_eq := (lastState_constants engine.timeoutNs cloid request.qty submittedNs
      (calls.map Prod.fst)).2.1
    have accounted {fetched : List Trade} (inside : fetched ⊆ trades) :=
      view.accounted_filled filled follows ledger unknown qty_eq
        (List.append_subset.mpr ⟨reported, inside⟩) checkNs dispatchNs
    rcases documented with rfl | rfl
    · simp only [if_true, accounted (List.nil_subset _), List.append_nil, filled, ne_eq,
        not_true_eq_false, false_and, reduceCtorEq, false_or, true_and]
    · simp only [reduceCtorEq, if_false, accounted (List.Subset.refl _), List.subset_append_right,
        filled, ne_eq, not_true_eq_false, false_and, true_or, and_true, true_and, false_or]
  · obtain ⟨outcome, target, action, outcome_eq, reacts⟩ :=
      rec.reconcileOrderStatus_closed asked view.final filled checkNs
    refine ⟨outcome, outcome_eq, ?_⟩
    rw [ExchangeView.accounted_closed filled follows unknown rfl reacts dispatchNs]
    simp only [filled, ne_eq, not_false_eq_true, true_and, false_and, or_false]

/-- Of two trades one has arrived before the check, the other one is fetched. -/
theorem status_check_accounts_fetched :
    let cloid : ClientOrderId := ⟨"cc-0007-0000000000000000"⟩
    let request : OrderRequest := ⟨"BTCUSDT", .buy, .limit, 10, some 100, .goodTillCancel⟩
    let calls : List (EngineOp × Int64) :=
      [(.process cloid (.fillReceived ⟨1, 4, 100⟩ 1), 1), (.tick 6, 6)]
    let raw : RawRestOrder := ⟨"BTCUSDT", 9, "0.010", "FILLED"⟩
    let rawTrades : List RawRestTrade :=
      [⟨"BTCUSDT", 1, "100", "0.004"⟩, ⟨"BTCUSDT", 2, "100", "0.006"⟩]
    ∃ outcome, (Reconciler.new 1 1000).reconcileOrderStatus raw (some rawTrades) = pure outcome ∧
      Accounted
        (clientMachine.next
          (clientMachine.final
            ⟨(StateMachineEngine.withTimeoutNs 5).track cloid 10 0,
              ((OrderGateway.inMemory 7).enqueue request 0).2⟩ calls)
          (.process cloid (.statusCheckResult outcome 7), 7))
        cloid raw 10 := by
  intro cloid request calls raw rawTrades
  have reliable : (OrderGateway.inMemory 7).journal.Reliable := trivial
  have issued : (OrderGateway.inMemory 7).cloidGen.generate.1 = cloid := by decide
  have parsed : parseScaled "0.010" ((Reconciler.new 1 1000).scalesFor "BTCUSDT").qtyScale =
      pure 10 := rfl
  have view : ExchangeView (.new 1 1000) raw rawTrades request 10 [⟨1, 4, 100⟩, ⟨2, 6, 100⟩] :=
    ⟨by decide, parsed, rfl, by decide, by decide, by decide, by decide, fun _ => rfl⟩
  have accounts := @status_check_accounts_iff (.withTimeoutNs 5) (.inMemory 7) reliable request
    0 0 calls
  rw [issued] at accounts
  obtain ⟨outcome, outcome_eq, accounted⟩ := accounts (by simp [calls, EngineOp.Spares])
    (by decide) view (by decide) (.inr rfl) 7 7
  exact ⟨outcome, outcome_eq, accounted.mpr (.inr ⟨by decide, by decide, .inl rfl⟩)⟩

/-- The order was filled in part before it was cancelled. The execution report is lost. -/
theorem status_check_drops_fill :
    let cloid : ClientOrderId := ⟨"cc-0007-0000000000000000"⟩
    let request : OrderRequest := ⟨"BTCUSDT", .buy, .limit, 10, some 100, .goodTillCancel⟩
    let calls : List (EngineOp × Int64) :=
      [(.process cloid (.fillReceived ⟨1, 4, 100⟩ 1), 1), (.tick 6, 6)]
    let raw : RawRestOrder := ⟨"BTCUSDT", 9, "0.004", "CANCELED"⟩
    let rawTrades : List RawRestTrade := [⟨"BTCUSDT", 1, "100", "0.004"⟩]
    let after : Client := clientMachine.next
      (clientMachine.final
        ⟨(StateMachineEngine.withTimeoutNs 5).track cloid 10 0,
          ((OrderGateway.inMemory 7).enqueue request 0).2⟩ calls)
      (.process cloid (.statusCheckResult (.cancelled 9) 7), 7)
    ((OrderGateway.inMemory 7).enqueue request 0).1 = .ok cloid ∧
      (lastState 5 cloid 10 0 (calls.map Prod.fst)).status = .unknownStatus ∧
      ExchangeView (.new 1 1000) raw rawTrades request 4 [⟨1, 4, 100⟩] ∧
      deliveredTrades (inputsFor cloid (calls.map Prod.fst)) ⊆ [⟨1, 4, 100⟩] ∧
      (∀ asked, (Reconciler.new 1 1000).reconcileOrderStatus raw asked = pure (.cancelled 9)) ∧
      ¬Accounted after cloid raw 4 := by
  intro cloid request calls raw rawTrades after
  have parsed : parseScaled "0.004" ((Reconciler.new 1 1000).scalesFor "BTCUSDT").qtyScale =
      pure 4 := rfl
  refine ⟨by decide, by decide,
    ⟨by decide, parsed, rfl, by decide, by decide, by decide, by decide, by decide⟩,
    by decide, fun _ => rfl, ?_⟩
  have untracked : after.engine.isTracked cloid = false := by decide
  have counted : after.gateway.orders[cloid]?.map (·.filledQty) = some 0 := by decide
  rintro (⟨order, found, quantity, -⟩ | tracked)
  · rw [found, Option.map_some, quantity] at counted
    cases counted
  · rw [untracked] at tracked
    cases tracked

end TradingConnectivity.Reconcile
