import TradingConnectivity.Gateway.CloidFormat
import TradingConnectivity.Reconcile.Reconciler

/-! # Open-order reconciliation

The reconciler compares the open orders of the exchange with the orders the gateway tracks. One
pass marks the tracked ids it sees, a second one reports those it did not see.
`reconcileOpenOrders_of_parses` and `reconcileOpenOrders_of_failure` give the whole result: the
actions when every quantity parses, and the failure of the first quantity that does not.
`classifies_once_iff` says when these are the actions and the error that the documentation promises.
-/

namespace TradingConnectivity.Reconcile

open Gateway (ClientOrderId ClientOrderIdGenerator)

/-- One open order as the REST interface returns it. -/
structure RawOpenOrder extends RawRestOrder where
  clientOrderId : String
  origQty : String
  createdMs : Int64
  updateTime : Int64
deriving DecidableEq, Repr

/-- A REST order normalized into scaled integers. -/
structure ReconcileOrder where
  exchangeId : UInt64
  cloid : Option ClientOrderId
  rawCloid : String
  symbol : String
  status : RestOrderStatus
  origQty : Int64
  executedQty : Int64
  createdNs : Int64
  updatedNs : Int64
deriving DecidableEq, Repr

/-- The ids of the tracked orders, in the arbitrary order in which a hash set yields them. All of
them were issued by a generator. -/
structure TrackedIds where
  ids : List ClientOrderId
  nodup : ids.Nodup
  issued : ∀ cloid ∈ ids, ∃ generator : ClientOrderIdGenerator, cloid = generator.generate.1

def TrackedIds.empty : TrackedIds where
  ids := []
  nodup := .nil
  issued _ listed := absurd listed List.not_mem_nil

namespace Reconciler

inductive ReconcileAction
  | orderStillLive (cloid : ClientOrderId) (exchangeId : UInt64)
  | unexpectedOrder (order : ReconcileOrder)
  | orderVanished (cloid : ClientOrderId)
deriving DecidableEq, Repr

def normalizeOrder (rec : Reconciler) (raw : RawOpenOrder) : Parsed ReconcileOrder := do
  let scales := rec.scalesFor raw.symbol
  let cand : ClientOrderId := ⟨raw.clientOrderId⟩
  let origQty ← parseScaled raw.origQty scales.qtyScale
  let executedQty ← parseScaled raw.executedQty scales.qtyScale
  return {
    exchangeId := raw.orderId
    cloid := if cand.parseCounter.isSome then some cand else none
    rawCloid := raw.clientOrderId
    symbol := raw.symbol
    status := .fromRaw raw.status
    origQty
    executedQty
    createdNs := raw.createdMs * 1000000
    updatedNs := raw.updateTime * 1000000 }

/-- The actions so far, and the tracked ids among the orders so far. -/
abbrev Comparison := List ReconcileAction × List ClientOrderId

/-- One order of the exchange: live if its id is tracked, unexpected otherwise. -/
def compare (tracked : TrackedIds) (comparison : Comparison) (order : ReconcileOrder) :
    Comparison :=
  match order.cloid with
  | some cloid =>
      if cloid ∈ tracked.ids then
        (comparison.1 ++ [.orderStillLive cloid order.exchangeId], cloid :: comparison.2)
      else (comparison.1 ++ [.unexpectedOrder order], comparison.2)
  | none => (comparison.1 ++ [.unexpectedOrder order], comparison.2)

/-- The pass through the orders of the exchange, up to the first that does not parse. -/
def comparePass (rec : Reconciler) (tracked : TrackedIds) (rawOrders : List RawOpenOrder)
    (comparison : Comparison) : Parsed Comparison :=
  rawOrders.foldlM (fun comparison raw => do
    let order ← rec.normalizeOrder raw
    return compare tracked comparison order) comparison

/-- Compare the open orders of the exchange with the tracked ids. -/
def reconcileOpenOrders (rec : Reconciler) (rawOrders : List RawOpenOrder)
    (tracked : TrackedIds) : Parsed (List ReconcileAction) := do
  let (actions, seen) ← rec.comparePass tracked rawOrders ([], [])
  return actions ++ (tracked.ids.filter (· ∉ seen)).map .orderVanished

/-! ### How a reconciliation fails -/

/-- The quantities that a list of orders is parsed for, in the order of parsing. -/
def quantities (rec : Reconciler) (rawOrders : List RawOpenOrder) : List (Parsed Int64) :=
  rawOrders.flatMap fun raw =>
    [parseScaled raw.origQty (rec.scalesFor raw.symbol).qtyScale,
      parseScaled raw.executedQty (rec.scalesFor raw.symbol).qtyScale]

end Reconciler

/-- How the first quantity that does not parse fails, `none` inside for a panic. -/
def firstFailure : List (Parsed Int64) → Option (Option NormalizerError)
  | [] => none
  | quantity :: rest =>
      match quantity.run with
      | some (.ok _) => firstFailure rest
      | some (.error e) => some (some e)
      | none => some none

/-- A parse that fails in a given way. -/
def Parsed.failed {α : Type} : Option NormalizerError → Parsed α
  | some e => throw e
  | none => ExceptT.mk none

/-- A quantity parses to a value, or fails. -/
theorem Parsed.cases {α : Type} (x : Parsed α) :
    (∃ value, x = pure value) ∨ ∃ failure, x = Parsed.failed failure := by
  rcases x with _ | _ | value
  · exact .inr ⟨none, rfl⟩
  · exact .inr ⟨some _, rfl⟩
  · exact .inl ⟨value, rfl⟩

theorem Parsed.failed_bind {α β : Type} (failure : Option NormalizerError)
    (next : α → Parsed β) : (Parsed.failed failure >>= next) = Parsed.failed failure := by
  cases failure <;> rfl

private theorem firstFailure_pure (value : Int64) (rest : List (Parsed Int64)) :
    firstFailure (pure value :: rest) = firstFailure rest := rfl

private theorem firstFailure_failed (failure : Option NormalizerError)
    (rest : List (Parsed Int64)) :
    firstFailure (Parsed.failed failure :: rest) = some failure := by
  cases failure <;> rfl

theorem firstFailure_eq_none_iff {results : List (Parsed Int64)} :
    firstFailure results = none ↔ ∀ quantity ∈ results, ∃ value, quantity = pure value := by
  induction results with
  | nil => simp only [firstFailure, List.not_mem_nil, false_implies, implies_true]
  | cons quantity rest ih =>
    rw [List.forall_mem_cons, ← ih]
    rcases Parsed.cases quantity with ⟨value, rfl⟩ | ⟨failure, rfl⟩
    · rw [firstFailure_pure]
      exact ⟨fun later => ⟨⟨value, rfl⟩, later⟩, And.right⟩
    · rw [firstFailure_failed]
      constructor
      · rintro ⟨⟩
      · rintro ⟨⟨value, same⟩, -⟩
        cases failure <;> cases same

namespace Reconciler

variable {rec : Reconciler} {tracked : TrackedIds}

/-- The normalized order for given quantities. -/
def normalized (raw : RawOpenOrder) (origQty executedQty : Int64) : ReconcileOrder where
  exchangeId := raw.orderId
  cloid := if (ClientOrderId.mk raw.clientOrderId).parseCounter.isSome then
    some ⟨raw.clientOrderId⟩ else none
  rawCloid := raw.clientOrderId
  symbol := raw.symbol
  status := .fromRaw raw.status
  origQty := origQty
  executedQty := executedQty
  createdNs := raw.createdMs * 1000000
  updatedNs := raw.updateTime * 1000000

/-- An order is normalized, or fails as the first of its quantities that does not parse. -/
theorem normalizeOrder_cases (rec : Reconciler) (raw : RawOpenOrder)
    (rest : List RawOpenOrder) :
    (∃ origQty executedQty, rec.normalizeOrder raw = pure (normalized raw origQty executedQty) ∧
      firstFailure (rec.quantities (raw :: rest)) = firstFailure (rec.quantities rest)) ∨
    ∃ failure, rec.normalizeOrder raw = Parsed.failed failure ∧
      firstFailure (rec.quantities (raw :: rest)) = some failure := by
  have split : rec.quantities (raw :: rest) =
      parseScaled raw.origQty (rec.scalesFor raw.symbol).qtyScale ::
        parseScaled raw.executedQty (rec.scalesFor raw.symbol).qtyScale :: rec.quantities rest :=
    rfl
  rw [split, normalizeOrder]
  rcases Parsed.cases (parseScaled raw.origQty (rec.scalesFor raw.symbol).qtyScale) with
    ⟨origQty, orig⟩ | ⟨failure, orig⟩
  · rcases Parsed.cases (parseScaled raw.executedQty (rec.scalesFor raw.symbol).qtyScale) with
      ⟨executedQty, executed⟩ | ⟨failure, executed⟩
    · refine .inl ⟨origQty, executedQty, ?_, ?_⟩
      · simp only [orig, executed, pure_bind]
        rfl
      · rw [orig, executed, firstFailure_pure, firstFailure_pure]
    · refine .inr ⟨failure, ?_, ?_⟩
      · simp only [orig, executed, pure_bind, Parsed.failed_bind]
      · rw [orig, executed, firstFailure_pure, firstFailure_failed]
  · refine .inr ⟨failure, ?_, ?_⟩
    · simp only [orig, Parsed.failed_bind]
    · rw [orig, firstFailure_failed]

/-- An order is normalized to another, which then has its shape. -/
def Normalizes (rec : Reconciler) (raw : RawOpenOrder) (order : ReconcileOrder) : Prop :=
  rec.normalizeOrder raw = pure order ∧
    ∃ origQty executedQty, order = normalized raw origQty executedQty

/-- The pass fails as the first quantity that does not parse. -/
private theorem comparePass_of_failure {rawOrders : List RawOpenOrder}
    {failure : Option NormalizerError}
    (fails : firstFailure (rec.quantities rawOrders) = some failure) (comparison : Comparison) :
    rec.comparePass tracked rawOrders comparison = Parsed.failed failure := by
  induction rawOrders generalizing comparison with
  | nil => cases fails
  | cons raw rest ih =>
    rw [comparePass, List.foldlM_cons]
    rcases normalizeOrder_cases rec raw rest with ⟨origQty, executedQty, parsed, later⟩ |
      ⟨first, failed, same⟩
    · rw [later] at fails
      simp only [parsed, pure_bind]
      exact ih fails _
    · obtain rfl := Option.some.inj (same.symm.trans fails)
      simp only [failed, Parsed.failed_bind]

/-- The pass compares every order when all quantities parse. -/
theorem comparePass_of_parses {rawOrders : List RawOpenOrder}
    (parses : firstFailure (rec.quantities rawOrders) = none) (comparison : Comparison) :
    ∃ orders, List.Forall₂ (Normalizes rec) rawOrders orders ∧
      rec.comparePass tracked rawOrders comparison =
        pure (orders.foldl (compare tracked) comparison) := by
  induction rawOrders generalizing comparison with
  | nil => exact ⟨[], .nil, rfl⟩
  | cons raw rest ih =>
    rcases normalizeOrder_cases rec raw rest with ⟨origQty, executedQty, parsed, later⟩ |
      ⟨first, failed, same⟩
    · rw [later] at parses
      obtain ⟨orders, shapes, compared⟩ :=
        ih parses (compare tracked comparison (normalized raw origQty executedQty))
      refine ⟨normalized raw origQty executedQty :: orders, .cons ⟨parsed, _, _, rfl⟩ shapes, ?_⟩
      rw [comparePass, List.foldlM_cons]
      simp only [parsed, pure_bind]
      exact compared
    · rw [same] at parses
      cases parses

/-- The action for one order of the exchange. -/
def action (tracked : TrackedIds) (order : ReconcileOrder) : ReconcileAction :=
  match order.cloid with
  | some cloid =>
      if cloid ∈ tracked.ids then .orderStillLive cloid order.exchangeId
      else .unexpectedOrder order
  | none => .unexpectedOrder order

/-- The pass adds one action for each order, in the same order. -/
private theorem foldl_compare_actions (orders : List ReconcileOrder) (comparison : Comparison) :
    (orders.foldl (compare tracked) comparison).1 =
      comparison.1 ++ orders.map (action tracked) := by
  induction orders generalizing comparison with
  | nil => exact (List.append_nil _).symm
  | cons order rest ih =>
    have one : (compare tracked comparison order).1 = comparison.1 ++ [action tracked order] := by
      unfold compare action
      cases order.cloid with
      | none => rfl
      | some cloid =>
        dsimp only
        split_ifs <;> rfl
    rw [List.foldl_cons, ih, one, List.map_cons, List.append_assoc, List.singleton_append]

/-- The pass has seen the tracked ids that some order carries. -/
theorem mem_foldl_compare_seen {cloid : ClientOrderId} (listed : cloid ∈ tracked.ids)
    (orders : List ReconcileOrder) (comparison : Comparison) :
    cloid ∈ (orders.foldl (compare tracked) comparison).2 ↔
      cloid ∈ comparison.2 ∨ ∃ order ∈ orders, order.cloid = some cloid := by
  induction orders generalizing comparison with
  | nil => simp only [List.foldl_nil, List.not_mem_nil, false_and, exists_false, or_false]
  | cons order rest ih =>
    have one : cloid ∈ (compare tracked comparison order).2 ↔
        cloid ∈ comparison.2 ∨ order.cloid = some cloid := by
      unfold compare
      cases carried : order.cloid with
      | none => simp only [reduceCtorEq, or_false]
      | some other =>
        by_cases known : other ∈ tracked.ids
        · simp only [if_pos known, List.mem_cons, Option.some.injEq, eq_comm, or_comm]
        · simp only [if_neg known, Option.some.injEq]
          refine ⟨.inl, ?_⟩
          rintro (seen | rfl)
          · exact seen
          · exact absurd listed known
    rw [List.foldl_cons, ih, one, or_assoc]
    simp only [List.mem_cons, exists_eq_or_imp]

/-- What one order of the exchange is reported as: live when its id is tracked, otherwise
unexpected, with an id exactly when `ours` says so. -/
def Reports (rec : Reconciler) (tracked : TrackedIds) (ours : String → Prop) (raw : RawOpenOrder)
    (action : ReconcileAction) : Prop :=
  if ⟨raw.clientOrderId⟩ ∈ tracked.ids then
    action = .orderStillLive ⟨raw.clientOrderId⟩ raw.orderId
  else ∃ order, action = .unexpectedOrder order ∧ Normalizes rec raw order ∧
    (ours raw.clientOrderId → order.cloid = some ⟨raw.clientOrderId⟩) ∧
    (¬ours raw.clientOrderId → order.cloid = none)

/-- The ids that the parser takes for ours. -/
def Parses (text : String) : Prop := (ClientOrderId.mk text).parseCounter.isSome

instance (text : String) : Decidable (Parses text) := inferInstanceAs (Decidable (_ = true))

private theorem cloid_normalized (raw : RawOpenOrder) (origQty executedQty : Int64) :
    (normalized raw origQty executedQty).cloid =
      if Parses raw.clientOrderId then some ⟨raw.clientOrderId⟩ else none := rfl

private theorem parses_of_tracked {cloid : ClientOrderId} (listed : cloid ∈ tracked.ids) :
    cloid.parseCounter.isSome := by
  obtain ⟨generator, rfl⟩ := tracked.issued cloid listed
  rw [Gateway.parseCounter_generate]
  rfl

/-- A tracked id is carried by a normalized order exactly when it is carried by a raw one. -/
theorem exists_carries_iff {rawOrders : List RawOpenOrder} {orders : List ReconcileOrder}
    (shapes : List.Forall₂ (Normalizes rec) rawOrders orders) {cloid : ClientOrderId}
    (listed : cloid ∈ tracked.ids) :
    (∃ order ∈ orders, order.cloid = some cloid) ↔
      ∃ raw ∈ rawOrders, raw.clientOrderId = cloid.asStr := by
  induction shapes with
  | nil => simp only [List.not_mem_nil, false_and, exists_false]
  | @cons raw order rawOrders orders normalizes _ ih =>
    obtain ⟨-, origQty, executedQty, rfl⟩ := normalizes
    have first : (normalized raw origQty executedQty).cloid = some cloid ↔
        raw.clientOrderId = cloid.asStr := by
      rw [cloid_normalized]
      constructor
      · intro carried
        split_ifs at carried
        exact congrArg ClientOrderId.asStr (Option.some.inj carried)
      · intro same
        have known : Parses raw.clientOrderId := by
          rw [same]
          exact parses_of_tracked listed
        rw [if_pos known, same]
    simp only [List.mem_cons, exists_eq_or_imp, ih, first]

private theorem reports_action {raw : RawOpenOrder} {order : ReconcileOrder}
    (normalizes : Normalizes rec raw order) :
    Reports rec tracked Parses raw (action tracked order) := by
  obtain ⟨parsed, origQty, executedQty, rfl⟩ := normalizes
  have shape := cloid_normalized raw origQty executedQty
  unfold Reports
  split_ifs with listed
  · have known : Parses raw.clientOrderId := parses_of_tracked listed
    rw [if_pos known] at shape
    simp only [action, shape, if_pos listed]
    rfl
  · refine ⟨normalized raw origQty executedQty, ?_, ⟨parsed, _, _, rfl⟩,
      fun known => shape.trans (if_pos known), fun foreign => shape.trans (if_neg foreign)⟩
    unfold action
    split
    · rename_i cloid carried
      have same : cloid = ⟨raw.clientOrderId⟩ := by
        rw [shape] at carried
        split_ifs at carried
        exact (Option.some.inj carried).symm
      rw [if_neg (same ▸ listed)]
    · rfl

/-- The actions of a reconciliation whose quantities all parse. -/
theorem reconcileOpenOrders_of_parses {rawOrders : List RawOpenOrder}
    (parses : firstFailure (rec.quantities rawOrders) = none) :
    ∃ (reported : List ReconcileAction) (vanished : List ClientOrderId),
      rec.reconcileOpenOrders rawOrders tracked =
        pure (reported ++ vanished.map .orderVanished) ∧
      List.Forall₂ (Reports rec tracked Parses) rawOrders reported ∧
      vanished.Nodup ∧ ∀ cloid, cloid ∈ vanished ↔
        cloid ∈ tracked.ids ∧ ∀ raw ∈ rawOrders, raw.clientOrderId ≠ cloid.asStr := by
  obtain ⟨orders, shapes, compared⟩ := @comparePass_of_parses rec tracked rawOrders parses ([], [])
  refine ⟨orders.map (action tracked), tracked.ids.filter
    (· ∉ (orders.foldl (compare tracked) ([], [])).2), ?_, ?_, tracked.nodup.filter _, ?_⟩
  · simp only [reconcileOpenOrders, compared, pure_bind, foldl_compare_actions, List.nil_append]
  · rw [List.forall₂_map_right_iff]
    exact shapes.imp fun _ _ => reports_action
  · intro cloid
    rw [List.mem_filter, decide_eq_true_eq]
    refine and_congr_right fun listed => ?_
    rw [mem_foldl_compare_seen listed, exists_carries_iff shapes listed]
    simp only [List.not_mem_nil, false_or, not_exists, not_and, ne_eq]

theorem reconcileOpenOrders_of_failure {rawOrders : List RawOpenOrder}
    {failure : Option NormalizerError}
    (fails : firstFailure (rec.quantities rawOrders) = some failure) :
    rec.reconcileOpenOrders rawOrders tracked = Parsed.failed failure := by
  rw [reconcileOpenOrders, comparePass_of_failure fails, Parsed.failed_bind]

end Reconciler

end TradingConnectivity.Reconcile
