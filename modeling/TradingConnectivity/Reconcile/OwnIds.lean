import TradingConnectivity.Reconcile.OpenOrders
import TradingConnectivity.UserStream.Normalizer

/-! # Which orders are taken for ours

An order is ours when its client order id has the documented format. The stream normalizer and the
reconciler ask the parser instead, which accepts more. `recognisesOwnIds_iff` says for which ids the
two agree, and `classifies_once_iff` when a reconciliation of open orders reports what the format
says.
-/

namespace TradingConnectivity.Reconcile

open Gateway (ClientOrderId Documented Lenient)
open UserStream (Normalizer RawExecutionReport OrderUpdate NormalizedEvent)

/-- The id has the documented format. -/
def HasFormat (text : String) : Prop := ∃ counter, Documented text counter

/-- The id has the format that the parser accepts. -/
def Accepted (text : String) : Prop := ∃ counter, Lenient text counter

theorem HasFormat.accepted {text : String} (documented : HasFormat text) : Accepted text :=
  documented.imp fun _ => Documented.lenient

private theorem parses_iff_accepted {text : String} : Reconciler.Parses text ↔ Accepted text :=
  ClientOrderId.parseCounter_isSome_iff

/-- An id field that is set exactly for the documented format. -/
def SetAsDocumented (text : String) (cloid : Option ClientOrderId) : Prop :=
  (HasFormat text → cloid = some ⟨text⟩) ∧ (¬HasFormat text → cloid = none)

/-- A computation succeeds when both of its parts do. -/
private theorem Parsed.bind_eq_pure {α β : Type} {x : Parsed α} {next : α → Parsed β} {b : β}
    (success : (x >>= next) = pure b) : ∃ a, x = pure a ∧ next a = pure b := by
  rcases Parsed.cases x with ⟨a, rfl⟩ | ⟨failure, rfl⟩
  · exact ⟨a, rfl, by rwa [pure_bind] at success⟩
  · rw [Parsed.failed_bind] at success
    cases failure <;> cases success

private theorem Parsed.pure_injective {α : Type} {a b : α} (same : (pure a : Parsed α) = pure b) :
    a = b := Except.ok.inj (Option.some.inj same)

/-- An execution report is normalized with the id that the parser recognises. -/
private theorem cloid_of_normalizeReport {normalizer : Normalizer} {rep : RawExecutionReport}
    {update : OrderUpdate} (success : normalizer.normalizeReport rep = pure update) :
    update.cloid =
      if Reconciler.Parses rep.clientOrderId then some ⟨rep.clientOrderId⟩ else none := by
  rw [Normalizer.normalizeReport] at success
  obtain ⟨side, -, success⟩ := Parsed.bind_eq_pure success
  obtain ⟨orderType, -, success⟩ := Parsed.bind_eq_pure success
  obtain ⟨tif, -, success⟩ := Parsed.bind_eq_pure success
  obtain ⟨lastFillQty, -, success⟩ := Parsed.bind_eq_pure success
  obtain ⟨lastFillPrice, -, success⟩ := Parsed.bind_eq_pure success
  obtain ⟨cumFillQty, -, success⟩ := Parsed.bind_eq_pure success
  cases success
  rfl

private theorem cloid_of_normalizeOrder {rec : Reconciler} {raw : RawOpenOrder}
    {order : ReconcileOrder}
    (success : rec.normalizeOrder raw = pure order) :
    order.cloid =
      if Reconciler.Parses raw.clientOrderId then some ⟨raw.clientOrderId⟩ else none := by
  rw [Reconciler.normalizeOrder] at success
  obtain ⟨origQty, -, success⟩ := Parsed.bind_eq_pure success
  obtain ⟨executedQty, -, success⟩ := Parsed.bind_eq_pure success
  cases success
  rfl

private theorem setAsDocumented_ite {text : String} (agree : Accepted text ↔ HasFormat text) :
    SetAsDocumented text (if Reconciler.Parses text then some ⟨text⟩ else none) := by
  constructor
  · intro documented
    exact if_pos (parses_iff_accepted.mpr documented.accepted)
  · intro foreign
    exact if_neg fun parsed => foreign (agree.mp (parses_iff_accepted.mp parsed))

/-- Exactly the ids of the documented format are recognised: by the parser, with the counter they
carry, by the stream normalizer and by the reconciler. -/
structure RecognisesOwnIds (text : String) : Prop where
  parsed : ∀ counter, ClientOrderId.parseCounter ⟨text⟩ = some counter ↔ Documented text counter
  normalized : ∀ (normalizer : Normalizer) (rep : RawExecutionReport) (update : OrderUpdate),
    rep.clientOrderId = text →
    normalizer.normalize (.executionReport rep) = pure (.orderUpdate update) →
    SetAsDocumented text update.cloid
  reconciled : ∀ (rec : Reconciler) (raw : RawOpenOrder) (order : ReconcileOrder),
    raw.clientOrderId = text → rec.normalizeOrder raw = pure order →
    SetAsDocumented text order.cloid

/-- An id is recognised as documented when it has the documented format or not even the accepted
one. -/
theorem recognisesOwnIds_iff (text : String) :
    RecognisesOwnIds text ↔ HasFormat text ∨ ¬Accepted text := by
  constructor
  · intro recognises
    exact Gateway.parseCounter_documented_iff.mp recognises.parsed
  · intro known
    have agree : Accepted text ↔ HasFormat text := by
      refine ⟨fun accepted => ?_, HasFormat.accepted⟩
      exact known.resolve_right (not_not_intro accepted)
    refine ⟨Gateway.parseCounter_documented_iff.mpr known, ?_, ?_⟩
    · rintro normalizer rep update rfl success
      rw [Normalizer.normalize, map_eq_pure_bind] at success
      obtain ⟨other, report, same⟩ := Parsed.bind_eq_pure success
      cases same
      rw [cloid_of_normalizeReport report]
      exact setAsDocumented_ite agree
    · rintro rec raw order rfl success
      rw [cloid_of_normalizeOrder success]
      exact setAsDocumented_ite agree

/-- The documented format has 24 characters. -/
theorem HasFormat.length_eq {text : String} (documented : HasFormat text) :
    text.toList.length = 24 := by
  obtain ⟨counter, inst, digits, shape, length, -, long, -⟩ := documented
  simp only [shape, List.length_append, List.length_cons, length, long, List.length_nil]

/-- Two short fields are recognised. -/
theorem short_fields_recognised :
    ClientOrderId.parseCounter ⟨"cc-0-1"⟩ = some 1 ∧ ¬HasFormat "cc-0-1" :=
  ⟨by decide, fun documented => absurd documented.length_eq (by decide)⟩

/-! ### Open orders -/

open Reconciler (Reports)

/-- Related lists are related element by element by a weaker relation of their elements. -/
private theorem forall₂_imp_of_mem {α β : Type*} {R S : α → β → Prop} {first : List α}
    {second : List β}
    (related : List.Forall₂ R first second) (weaker : ∀ a ∈ first, ∀ b, R a b → S a b) :
    List.Forall₂ S first second := by
  induction related with
  | nil => exact .nil
  | cons head _ ih =>
    rw [List.forall_mem_cons] at weaker
    exact .cons (weaker.1 _ head) (ih weaker.2)

/-- An element of related lists has a partner that both relations know. -/
private theorem exists_of_forall₂ {α β : Type*} {R S : α → β → Prop} {first : List α}
    {second : List β}
    (left : List.Forall₂ R first second) (right : List.Forall₂ S first second) :
    ∀ a ∈ first, ∃ b, R a b ∧ S a b := by
  induction left with
  | nil => exact fun _ member => absurd member List.not_mem_nil
  | cons head _ ih =>
    cases right with
    | cons head' right =>
      rw [List.forall_mem_cons]
      exact ⟨⟨_, head, head'⟩, ih right⟩

/-- What the documentation promises of a reconciliation of open orders: one action for each order
of the exchange, in order, then one for each tracked id that none of them carries; an error when
some quantity does not parse. -/
structure ClassifiesOnce (rec : Reconciler) (rawOrders : List RawOpenOrder)
    (tracked : TrackedIds) : Prop where
  classified : (∀ quantity ∈ rec.quantities rawOrders, ∃ value, quantity = pure value) →
    ∃ (reported : List Reconciler.ReconcileAction) (vanished : List ClientOrderId),
      rec.reconcileOpenOrders rawOrders tracked =
        pure (reported ++ vanished.map .orderVanished) ∧
      List.Forall₂ (Reports rec tracked HasFormat) rawOrders reported ∧
      vanished.Nodup ∧ ∀ cloid, cloid ∈ vanished ↔
        cloid ∈ tracked.ids ∧ ∀ raw ∈ rawOrders, raw.clientOrderId ≠ cloid.asStr
  rejected : (∃ quantity ∈ rec.quantities rawOrders, ∀ value, quantity ≠ pure value) →
    ∃ e, rec.reconcileOpenOrders rawOrders tracked = throw e

/-- An untracked order is reported by the parser as by the format only if the two agree on it. -/
private theorem hasFormat_of_reports {rec : Reconciler} {tracked : TrackedIds} {raw : RawOpenOrder}
    {action : Reconciler.ReconcileAction}
    (parsed : Reports rec tracked Reconciler.Parses raw action)
    (documented : Reports rec tracked HasFormat raw action)
    (untracked : (⟨raw.clientOrderId⟩ : ClientOrderId) ∉ tracked.ids)
    (accepted : Accepted raw.clientOrderId) : HasFormat raw.clientOrderId := by
  rw [Reports, if_neg untracked] at parsed documented
  obtain ⟨order, rfl, -, carried, -⟩ := parsed
  obtain ⟨other, same, -, -, unset⟩ := documented
  obtain rfl := Reconciler.ReconcileAction.unexpectedOrder.inj same
  by_contra foreign
  have clash := (carried (parses_iff_accepted.mpr accepted)).symm.trans (unset foreign)
  cases clash

private theorem reports_hasFormat {rec : Reconciler} {tracked : TrackedIds} {raw : RawOpenOrder}
    {action : Reconciler.ReconcileAction}
    (known : (⟨raw.clientOrderId⟩ : ClientOrderId) ∉ tracked.ids →
      Accepted raw.clientOrderId → HasFormat raw.clientOrderId)
    (parsed : Reports rec tracked Reconciler.Parses raw action) :
    Reports rec tracked HasFormat raw action := by
  rw [Reports] at parsed ⊢
  split_ifs at parsed ⊢ with listed
  · exact parsed
  · obtain ⟨order, same, normalizes, carried, unset⟩ := parsed
    refine ⟨order, same, normalizes, fun documented => ?_, fun foreign => ?_⟩
    · exact carried (parses_iff_accepted.mpr documented.accepted)
    · exact unset fun parses => foreign (known listed (parses_iff_accepted.mp parses))

/-- A reconciliation that keeps the promise shows that the parser takes no untracked order for ours
that lacks the format. -/
theorem ClassifiesOnce.hasFormat {rec : Reconciler} {rawOrders : List RawOpenOrder}
    {tracked : TrackedIds} (promise : ClassifiesOnce rec rawOrders tracked)
    (parses : firstFailure (rec.quantities rawOrders) = none) {raw : RawOpenOrder}
    (member : raw ∈ rawOrders)
    (untracked : (⟨raw.clientOrderId⟩ : ClientOrderId) ∉ tracked.ids)
    (accepted : Accepted raw.clientOrderId) : HasFormat raw.clientOrderId := by
  obtain ⟨reported, vanished, result, reports, -, -⟩ :=
    @Reconciler.reconcileOpenOrders_of_parses rec tracked rawOrders parses
  obtain ⟨claimed, claimedVanished, same, documented, -, -⟩ :=
    promise.classified (firstFailure_eq_none_iff.mp parses)
  have lists := Parsed.pure_injective (result.symm.trans same)
  have lengths : reported.length = claimed.length :=
    reports.length_eq.symm.trans documented.length_eq
  obtain ⟨rfl, -⟩ := List.append_inj lists lengths
  obtain ⟨action, parsed, format⟩ := exists_of_forall₂ reports documented raw member
  exact hasFormat_of_reports parsed format untracked accepted

/-- A reconciliation keeps the promise when all quantities parse and every untracked order whose id
the parser accepts has the documented format, or when the first quantity that does not parse is an
error and no panic. -/
theorem classifies_once_iff (rec : Reconciler) (rawOrders : List RawOpenOrder)
    (tracked : TrackedIds) :
    ClassifiesOnce rec rawOrders tracked ↔
      (firstFailure (rec.quantities rawOrders) = none ∧ ∀ raw ∈ rawOrders,
        (⟨raw.clientOrderId⟩ : ClientOrderId) ∉ tracked.ids →
          Accepted raw.clientOrderId → HasFormat raw.clientOrderId) ∨
      ∃ e, firstFailure (rec.quantities rawOrders) = some (some e) := by
  cases outcome : firstFailure (rec.quantities rawOrders) with
  | none =>
    have all := firstFailure_eq_none_iff.mp outcome
    obtain ⟨reported, vanished, result, reports, nodup, missing⟩ :=
      @Reconciler.reconcileOpenOrders_of_parses rec tracked rawOrders outcome
    simp only [true_and, reduceCtorEq, exists_false, or_false]
    constructor
    · exact fun promise raw member => promise.hasFormat outcome member
    · intro known
      refine ⟨fun _ => ⟨reported, vanished, result, ?_, nodup, missing⟩, ?_⟩
      · exact forall₂_imp_of_mem reports fun raw member _ => reports_hasFormat (known raw member)
      · rintro ⟨quantity, member, fails⟩
        obtain ⟨value, parses⟩ := all quantity member
        exact absurd parses (fails value)
  | some failure =>
    have result := @Reconciler.reconcileOpenOrders_of_failure rec tracked rawOrders _ outcome
    have some_fails : ¬∀ quantity ∈ rec.quantities rawOrders, ∃ value, quantity = pure value := by
      rw [← firstFailure_eq_none_iff, outcome]
      exact Option.some_ne_none failure
    simp only [reduceCtorEq, false_and, false_or, Option.some.injEq]
    constructor
    · intro promise
      simp only [not_forall, not_exists] at some_fails
      obtain ⟨quantity, member, fails⟩ := some_fails
      obtain ⟨e, thrown⟩ := promise.rejected ⟨quantity, member, fails⟩
      cases failure with
      | none => cases result.symm.trans thrown
      | some e => exact ⟨e, rfl⟩
    · rintro ⟨e, rfl⟩
      exact ⟨fun all => absurd all some_fails, fun _ => ⟨e, result⟩⟩

/-- An open order whose id has two short fields. -/
def shortOrder : RawOpenOrder :=
  ⟨⟨"BTCUSDT", 5, "0", "NEW"⟩, "cc-0-1", "1", 0, 0⟩

/-- The order with the short id is reported as one of ours. A quantity that is cut inside a
character brings the reconciliation down. -/
theorem foreign_order_claimed :
    (Reconciler.new 100 100).reconcileOpenOrders [shortOrder] .empty =
        pure [.unexpectedOrder (Reconciler.normalized shortOrder 100 0)] ∧
      (Reconciler.normalized shortOrder 100 0).cloid = some ⟨"cc-0-1"⟩ ∧
      ¬ClassifiesOnce (Reconciler.new 100 100) [shortOrder] .empty ∧
      (Reconciler.new 10 10).reconcileOpenOrders [{ shortOrder with origQty := "1.é" }] .empty =
        Parsed.failed none := by
  have accepted : Accepted shortOrder.clientOrderId := parses_iff_accepted.mp (by decide)
  refine ⟨rfl, rfl, fun promise => ?_, rfl⟩
  have documented := promise.hasFormat rfl List.mem_cons_self List.not_mem_nil accepted
  exact absurd documented.length_eq (by decide)

end TradingConnectivity.Reconcile
