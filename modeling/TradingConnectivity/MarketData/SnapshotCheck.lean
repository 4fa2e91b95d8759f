import TradingConnectivity.MarketData.OrderBook
import TradingConnectivity.ToMathlib.FixedWidth

/-! # Periodic snapshot validation

The top levels of the book are compared with those of a fetched snapshot, pair by pair. The pairing
stops where the shorter side ends, so a check that allows no difference passes exactly when one of
the two price lists is a prefix of the other (`compatible_iff_agreeAsFar`).
-/

namespace TradingConnectivity.MarketData

structure SnapshotValidatorConfig where
  checkLevels : ℕ
  maxMismatched : ℕ
  priceTolerance : Int64
  deriving DecidableEq

inductive SnapshotCheckResult
  | compatible
  | incompatible (bidMismatches askMismatches : ℕ) (snapshotId : UInt64)
  deriving DecidableEq

/-- The number of level pairs whose prices differ by more than the tolerance. -/
def countPriceMismatches (bookLevels snapLevels : List PriceLevel) (checkLevels : ℕ)
    (priceTolerance : Int64) : ℕ :=
  ((bookLevels.take checkLevels).zip (snapLevels.take checkLevels)).countP
    fun pair => (pair.1.price - pair.2.price).abs > priceTolerance

def checkSnapshot (bookBids bookAsks : List PriceLevel) (snapshot : BookSnapshot)
    (cfg : SnapshotValidatorConfig) : SnapshotCheckResult :=
  let bidMismatches :=
    countPriceMismatches bookBids snapshot.bids cfg.checkLevels cfg.priceTolerance
  let askMismatches :=
    countPriceMismatches bookAsks snapshot.asks cfg.checkLevels cfg.priceTolerance
  if bidMismatches > cfg.maxMismatched ∨ askMismatches > cfg.maxMismatched then
    .incompatible bidMismatches askMismatches snapshot.updateId
  else .compatible

/-- The prices of the first levels. -/
def topPrices (n : ℕ) (levels : List PriceLevel) : List Int64 :=
  (levels.take n).map PriceLevel.price

/-- The first levels have equal prices as far as both lists go. -/
def AgreeAsFar (n : ℕ) (bookLevels snapLevels : List PriceLevel) : Prop :=
  topPrices n bookLevels <+: topPrices n snapLevels ∨
    topPrices n snapLevels <+: topPrices n bookLevels

/-- No two compared prices are exactly half of the integer range apart: the smallest integer, to
which such a difference wraps, has no absolute value. -/
def DifferencesFit (n : ℕ) (bookLevels snapLevels : List PriceLevel) : Prop :=
  ∀ pair ∈ (topPrices n bookLevels).zip (topPrices n snapLevels),
    pair.1 - pair.2 ≠ Int64.minValue

instance (n : ℕ) (bookLevels snapLevels : List PriceLevel) :
    Decidable (DifferencesFit n bookLevels snapLevels) :=
  List.decidableBAll (fun pair : Int64 × Int64 => pair.1 - pair.2 ≠ Int64.minValue) _

/-- Lists are equal pair by pair exactly when one is a prefix of the other. -/
theorem forall_mem_zip_eq_iff {α : Type*} (xs ys : List α) :
    (∀ pair ∈ xs.zip ys, pair.1 = pair.2) ↔ xs <+: ys ∨ ys <+: xs := by
  induction xs generalizing ys with
  | nil =>
    rw [List.zip_nil_left]
    exact ⟨fun _ => .inl List.nil_prefix, fun _ pair member => absurd member List.not_mem_nil⟩
  | cons x xs ih =>
    cases ys with
    | nil =>
      rw [List.zip_nil_right]
      exact ⟨fun _ => .inr List.nil_prefix, fun _ pair member => absurd member List.not_mem_nil⟩
    | cons y ys =>
      rw [List.zip_cons_cons, List.forall_mem_cons, ih, List.cons_prefix_cons,
        List.cons_prefix_cons, @eq_comm _ y x]
      exact and_or_left

/-- Without a tolerance the mismatches are the pairs of different prices. -/
theorem countPriceMismatches_eq_zero_iff {bookLevels snapLevels : List PriceLevel} {n : ℕ}
    (fits : DifferencesFit n bookLevels snapLevels) :
    countPriceMismatches bookLevels snapLevels n 0 = 0 ↔ AgreeAsFar n bookLevels snapLevels := by
  have prices : (topPrices n bookLevels).zip (topPrices n snapLevels) =
      ((bookLevels.take n).zip (snapLevels.take n)).map
        (Prod.map PriceLevel.price PriceLevel.price) := List.zip_map ..
  rw [AgreeAsFar, ← forall_mem_zip_eq_iff, countPriceMismatches, List.countP_eq_zero, prices,
    List.forall_mem_map]
  refine forall₂_congr fun pair member => ?_
  have inside : (pair.1.price, pair.2.price) ∈
      (topPrices n bookLevels).zip (topPrices n snapLevels) := by
    rw [prices]
    exact List.mem_map.mpr ⟨pair, member, rfl⟩
  rw [decide_eq_true_eq, Int64.abs_sub_pos_iff (fits _ inside), not_not, Prod.map_fst,
    Prod.map_snd]

/-- A check that allows no difference passes exactly when on each side the top prices of book and
snapshot are equal as far as both lists go. -/
theorem compatible_iff_agreeAsFar (bookBids bookAsks : List PriceLevel) (snapshot : BookSnapshot)
    (n : ℕ) (bids : DifferencesFit n bookBids snapshot.bids)
    (asks : DifferencesFit n bookAsks snapshot.asks) :
    checkSnapshot bookBids bookAsks snapshot ⟨n, 0, 0⟩ = .compatible ↔
      AgreeAsFar n bookBids snapshot.bids ∧ AgreeAsFar n bookAsks snapshot.asks := by
  rw [← countPriceMismatches_eq_zero_iff bids, ← countPriceMismatches_eq_zero_iff asks,
    checkSnapshot]
  simp only [gt_iff_lt, Nat.pos_iff_ne_zero]
  split
  · rename_i different
    constructor
    · intro impossible
      cases impossible
    · rintro ⟨bidsSame, asksSame⟩
      exact absurd different (not_or.mpr ⟨not_not_intro bidsSame, not_not_intro asksSame⟩)
  · rename_i same
    rw [not_or, not_not, not_not] at same
    exact ⟨fun _ => same, fun _ => rfl⟩

/-- Equal quantities are not needed. -/
theorem compatible_same_prices :
    checkSnapshot [⟨100, 10⟩, ⟨99, 5⟩] [⟨101, 8⟩] ⟨1, [⟨100, 7⟩, ⟨99, 6⟩], [⟨101, 9⟩]⟩ ⟨5, 0, 0⟩ =
      .compatible :=
  (compatible_iff_agreeAsFar _ _ _ 5 (by decide) (by decide)).mpr
    ⟨.inl List.prefix_rfl, .inl List.prefix_rfl⟩

/-- A bid level of the book that the snapshot lacks is not reported. -/
theorem compatible_missing_level :
    checkSnapshot [⟨100, 10⟩, ⟨99, 5⟩] [⟨101, 8⟩] ⟨1, [⟨100, 10⟩], [⟨101, 8⟩]⟩ ⟨5, 0, 0⟩ =
        .compatible ∧
      topPrices 5 [⟨100, 10⟩, ⟨99, 5⟩] ≠ topPrices 5 [⟨100, 10⟩] := by
  decide

end TradingConnectivity.MarketData
