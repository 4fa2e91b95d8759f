import Mathlib.Algebra.Order.Ring.Abs
import TradingConnectivity.Shadow.Comparisons
import TradingConnectivity.ToMathlib.FixedWidth

/-! # Which price differences are counted

A difference exceeds the tolerance by an inequality of integers. The comparator instead divides,
truncates and compares, in 64 bits. `countsExactly_iff` says for which prices the two agree: those
whose scaled difference fits, and that do not exceed the tolerance by a fraction of a basis point
or next to an active price that is zero or negative.
-/

namespace TradingConnectivity.Shadow

/-- The integer has a 64-bit representation. -/
def Fits (x : ℤ) : Prop := -2 ^ 63 ≤ x ∧ x < 2 ^ 63

/-- No operation on the prices of one side overflows; a side with active price zero has none. -/
structure WithoutOverflow (active shadow : Int64) : Prop where
  difference : active ≠ 0 → Fits (active.toInt - shadow.toInt)
  absolute : active ≠ 0 → Fits |active.toInt - shadow.toInt|
  product : active ≠ 0 → Fits (|active.toInt - shadow.toInt| * 10000)
  quotient : active ≠ 0 → Fits ((|active.toInt - shadow.toInt| * 10000).tdiv active.toInt)

/-- The difference is above the tolerance, over the integers. -/
def Exceeds (toleranceBps active shadow : Int64) : Prop :=
  toleranceBps.toInt * |active.toInt| < |active.toInt - shadow.toInt| * 10000

/-- The scaled difference fits, or is not computed. -/
def ScaledFits (active shadow : Int64) : Prop :=
  active = 0 ∨ |active.toInt - shadow.toInt| * 10000 < 2 ^ 63

/-- The difference is above the tolerance by at least one whole basis point of a positive active
price. -/
def AboveByWhole (toleranceBps active shadow : Int64) : Prop :=
  0 < active.toInt ∧
    (toleranceBps.toInt + 1) * active.toInt ≤ |active.toInt - shadow.toInt| * 10000

private theorem withoutOverflow_iff {active shadow : Int64} :
    WithoutOverflow active shadow ↔ ScaledFits active shadow := by
  constructor
  · intro fits
    by_cases zero : active = 0
    · exact .inl zero
    · exact .inr (fits.product zero).2
  · intro fits
    by_cases zero : active = 0
    · exact ⟨fun other => absurd zero other, fun other => absurd zero other,
        fun other => absurd zero other, fun other => absurd zero other⟩
    · have small := fits.resolve_left zero
      have nonneg := abs_nonneg (active.toInt - shadow.toInt)
      have lower := neg_abs_le (active.toInt - shadow.toInt)
      have upper := le_abs_self (active.toInt - shadow.toInt)
      have quotient := Int.natAbs_tdiv_le_natAbs (|active.toInt - shadow.toInt| * 10000)
        active.toInt
      refine ⟨fun _ => ⟨?_, ?_⟩, fun _ => ⟨?_, ?_⟩, fun _ => ⟨?_, ?_⟩, fun _ => ⟨?_, ?_⟩⟩ <;>
        omega

/-- Without overflow the difference is the truncated quotient. -/
theorem diffBps_of_fits {active shadow : Int64} (fits : ScaledFits active shadow) :
    ∃ bps, diffBps active shadow = some bps ∧
      bps.toInt = (|active.toInt - shadow.toInt| * 10000).tdiv active.toInt := by
  by_cases zero : active = 0
  · subst zero
    exact ⟨0, rfl, (Int.tdiv_zero _).symm⟩
  · have small := fits.resolve_left zero
    have nonneg := abs_nonneg (active.toInt - shadow.toInt)
    have lower := neg_abs_le (active.toInt - shadow.toInt)
    have upper := le_abs_self (active.toInt - shadow.toInt)
    have difference : (active - shadow).toInt = active.toInt - shadow.toInt :=
      Int64.toInt_sub_of_bounds (by omega) (by omega)
    have absolute : (active - shadow).abs.toInt = |active.toInt - shadow.toInt| := by
      rw [Int64.toInt_abs_of_bounds (by omega), difference]
    have factor : (10000 : Int64).toInt = 10000 := rfl
    have product : (active - shadow).abs.toInt * (10000 : Int64).toInt =
        |active.toInt - shadow.toInt| * 10000 := by rw [absolute, factor]
    have scaled : ((active - shadow).abs * 10000).toInt =
        |active.toInt - shadow.toInt| * 10000 := by
      rw [Int64.toInt_mul_of_bounds (by omega) (by omega), product]
    have proper : (active - shadow).abs * 10000 ≠ Int64.minValue := by
      intro smallest
      rw [smallest, Int64.toInt_minValue] at scaled
      omega
    refine ⟨(active - shadow).abs * 10000 / active, ?_, ?_⟩
    · simp only [diffBps, ne_eq, zero, not_false_eq_true, if_true, proper, false_and, if_false]
    · rw [Int64.toInt_div_of_ne_left _ _ proper, scaled]

/-- The difference is the truncated quotient of the wrapped integers. -/
private theorem toInt_of_diffBps {active shadow bps : Int64} (nonzero : active ≠ 0)
    (found : diffBps active shadow = some bps) :
    bps.toInt = ((active - shadow).abs * 10000).toInt.tdiv active.toInt := by
  rw [diffBps, if_pos nonzero] at found
  obtain ⟨defined, divided⟩ := Option.ite_none_left_eq_some.mp found
  obtain rfl := Option.some.inj divided
  rcases not_and_or.mp defined with left | right
  · exact Int64.toInt_div_of_ne_left _ _ left
  · exact Int64.toInt_div_of_ne_right _ _ right

/-- What a quotient is above, the dividend is above times the divisor. -/
private theorem succ_mul_abs_le_of_lt_tdiv {tolerance active scaled : ℤ}
    (above : tolerance < scaled.tdiv active) : (tolerance + 1) * |active| ≤ |scaled| := by
  have below : (scaled.tdiv active).natAbs * active.natAbs ≤ scaled.natAbs := by
    rw [Int.natAbs_tdiv]
    exact Nat.div_mul_le_self _ _
  calc (tolerance + 1) * |active| ≤ |scaled.tdiv active| * |active| :=
        mul_le_mul_of_nonneg_right (above.trans_le (le_abs_self _)) (abs_nonneg _)
    _ = ((scaled.tdiv active).natAbs * active.natAbs : ℕ) := by
        rw [Int.natCast_mul, Int.natCast_natAbs, Int.natCast_natAbs]
    _ ≤ |scaled| := by
        rw [← Int.natCast_natAbs scaled]
        exact Int.ofNat_le.mpr below

/-- Whatever the comparator finds above the tolerance exceeds it, also after wrapping. -/
theorem exceeds_of_diffBps {toleranceBps active shadow bps : Int64} (nonneg : 0 ≤ toleranceBps)
    (found : diffBps active shadow = some bps) (above : bps > toleranceBps) :
    Exceeds toleranceBps active shadow := by
  have tolerance : 0 ≤ toleranceBps.toInt := Int64.le_iff_toInt_le.mp nonneg
  have larger : toleranceBps.toInt < bps.toInt := Int64.lt_iff_toInt_lt.mp above
  by_cases zero : active = 0
  · rw [zero] at found
    obtain rfl : (0 : Int64) = bps := Option.some.inj found
    exact absurd larger (not_lt_of_ge tolerance)
  · rw [toInt_of_diffBps zero found] at larger
    have whole := succ_mul_abs_le_of_lt_tdiv larger
    have positive : 0 < |active.toInt| := by
      rw [abs_pos]
      exact fun equal => zero (Int64.toInt_inj.mp equal)
    have wrapped := Int64.abs_toInt_sub_le active shadow
    have size := Int64.abs_toInt_mul_le (active - shadow).abs 10000
    rw [abs_mul, Int64.abs_toInt_abs, show |(10000 : Int64).toInt| = 10000 from rfl] at size
    rw [Int.add_mul, Int.one_mul] at whole
    rw [Exceeds]
    omega

/-- A quotient is above the tolerance exactly for a positive active price and a whole basis point
more. -/
theorem tolerance_lt_tdiv_iff {tolerance active scaled : ℤ} (nonneg : 0 ≤ tolerance)
    (positive : 0 ≤ scaled) :
    tolerance < scaled.tdiv active ↔ 0 < active ∧ (tolerance + 1) * active ≤ scaled := by
  rcases lt_or_ge 0 active with above | below
  · have floor : tolerance + 1 ≤ scaled.tdiv active ↔ (tolerance + 1) * active ≤ scaled := by
      rw [Int.tdiv_eq_ediv_of_nonneg positive]
      exact Int.le_ediv_iff_mul_le above
    rw [← floor]
    exact ⟨fun less => ⟨above, less⟩, And.right⟩
  · have small := Int.tdiv_nonpos_of_nonneg_of_nonpos positive below
    constructor <;> omega

/-- A difference by a whole basis point more than the tolerance exceeds it. -/
theorem AboveByWhole.exceeds {toleranceBps active shadow : Int64}
    (above : AboveByWhole toleranceBps active shadow) : Exceeds toleranceBps active shadow := by
  obtain ⟨positive, whole⟩ := above
  rw [Exceeds, abs_of_pos positive]
  rw [Int.add_mul, Int.one_mul] at whole
  omega

/-- Without overflow the differences of a comparison exist, and are above the tolerance exactly by a
whole basis point. -/
theorem diverges_iff_of_fits {toleranceBps : Int64} {c : Comparison} (nonneg : 0 ≤ toleranceBps)
    (bid : ScaledFits c.active.1 c.shadow.1) (ask : ScaledFits c.active.2 c.shadow.2) :
    ∃ diffs, c.diffs? = some diffs ∧ (Diverges toleranceBps diffs ↔
      AboveByWhole toleranceBps c.active.1 c.shadow.1 ∨
        AboveByWhole toleranceBps c.active.2 c.shadow.2) := by
  obtain ⟨bidDiffBps, bidSome, bidValue⟩ := diffBps_of_fits bid
  obtain ⟨askDiffBps, askSome, askValue⟩ := diffBps_of_fits ask
  have tolerance : 0 ≤ toleranceBps.toInt := Int64.le_iff_toInt_le.mp nonneg
  have scaled (active shadow : Int64) : 0 ≤ |active.toInt - shadow.toInt| * 10000 :=
    mul_nonneg (abs_nonneg _) (by decide)
  refine ⟨(bidDiffBps, askDiffBps), Comparison.diffs?_eq_some_iff.mpr ⟨bidSome, askSome⟩, ?_⟩
  rw [Diverges, gt_iff_lt, gt_iff_lt, Int64.lt_iff_toInt_lt, Int64.lt_iff_toInt_lt, bidValue,
    askValue]
  exact or_congr (tolerance_lt_tdiv_iff tolerance (scaled _ _))
    (tolerance_lt_tdiv_iff tolerance (scaled _ _))

/-- Prices whose comparison, by any comparator that knows them, never overflows or panics and
counts a divergence exactly when a difference exceeds the tolerance. -/
structure CountsExactly (toleranceBps : Int64) (active shadow : Bbo) : Prop where
  fits : WithoutOverflow active.1 shadow.1 ∧ WithoutOverflow active.2 shadow.2
  runs : ∀ (cmp : Comparator) (symbol : String), cmp.activeBbo[symbol]? = some active →
    cmp.shadowBbo[symbol]? = some shadow → (cmp.comparePending [symbol]).isSome
  counted : ∀ (cmp cmp' : Comparator) (order : List String) (symbol : String),
    cmp.config.toleranceBps = toleranceBps → cmp.activeBbo[symbol]? = some active →
    cmp.shadowBbo[symbol]? = some shadow → order.Nodup → symbol ∈ order →
    cmp.comparePending order = some cmp' →
      ((cmp'.statsOf symbol).divergences = (cmp.statsOf symbol).divergences + 1 ↔
        Exceeds toleranceBps active.1 shadow.1 ∨ Exceeds toleranceBps active.2 shadow.2)

/-- A comparator that knows the prices of one symbol. -/
def Comparator.knowing (config : CompareConfig) (symbol : String) (active shadow : Bbo) :
    Comparator :=
  { Comparator.new config with
    activeBbo := (∅ : Std.ExtTreeMap String Bbo).insert symbol active
    shadowBbo := (∅ : Std.ExtTreeMap String Bbo).insert symbol shadow
    pending := {symbol} }

private theorem Comparator.knowing_comparisonOf? (config : CompareConfig) (symbol : String)
    (active shadow : Bbo) : (knowing config symbol active shadow).comparisonOf? symbol =
      some ⟨symbol, active, shadow⟩ :=
  comparisonOf?_eq_some_iff.mpr
    ⟨rfl, Std.ExtTreeMap.getElem?_insert_self, Std.ExtTreeMap.getElem?_insert_self⟩

/-- What is counted for such prices does not depend on the comparator, so one that knows no other
symbol shows it. -/
theorem CountsExactly.diverges_iff {toleranceBps : Int64} {active shadow : Bbo}
    (counts : CountsExactly toleranceBps active shadow) :
    ∃ diffs, (Comparison.mk "" active shadow).diffs? = some diffs ∧ (Diverges toleranceBps diffs ↔
      Exceeds toleranceBps active.1 shadow.1 ∨ Exceeds toleranceBps active.2 shadow.2) := by
  have known := Comparator.knowing_comparisonOf? ⟨toleranceBps, 0, 0⟩ "" active shadow
  obtain ⟨_, activeSome, shadowSome⟩ := Comparator.comparisonOf?_eq_some_iff.mp known
  obtain ⟨cmp', done⟩ := Option.isSome_iff_exists.mp (counts.runs _ _ activeSome shadowSome)
  have once := List.nodup_singleton ""
  have member := List.mem_singleton_self ""
  have counted := counts.counted _ cmp' [""] "" rfl activeSome shadowSome once member done
  obtain ⟨diffs, found, recorded⟩ := Comparator.statsOf_comparePending known once member done
  rw [recorded] at counted
  exact ⟨diffs, found, SymbolStats.record_divergences_eq_succ_iff.symm.trans counted⟩

/-- A divergence is counted exactly when a side exceeds the tolerance, for those prices whose scaled
differences fit and of which, if any side exceeds, one does by a whole basis point of a positive
active price. -/
theorem countsExactly_iff {toleranceBps : Int64} (nonneg : 0 ≤ toleranceBps) (active shadow : Bbo) :
    CountsExactly toleranceBps active shadow ↔
      ScaledFits active.1 shadow.1 ∧ ScaledFits active.2 shadow.2 ∧
        (Exceeds toleranceBps active.1 shadow.1 ∨ Exceeds toleranceBps active.2 shadow.2 →
          AboveByWhole toleranceBps active.1 shadow.1 ∨
            AboveByWhole toleranceBps active.2 shadow.2) := by
  constructor
  · intro counts
    have bid := withoutOverflow_iff.mp counts.fits.1
    have ask := withoutOverflow_iff.mp counts.fits.2
    refine ⟨bid, ask, fun exceeds => ?_⟩
    obtain ⟨diffs, found, counted⟩ := counts.diverges_iff
    obtain ⟨diffs', found', whole⟩ := diverges_iff_of_fits
      (c := ⟨"", active, shadow⟩) nonneg bid ask
    obtain rfl := Option.some.inj (found.symm.trans found')
    exact whole.mp (counted.mpr exceeds)
  · rintro ⟨bid, ask, whole⟩
    refine ⟨⟨withoutOverflow_iff.mpr bid, withoutOverflow_iff.mpr ask⟩, ?_, ?_⟩
    · intro cmp symbol activeSome shadowSome
      have known : cmp.comparisonOf? symbol = some ⟨symbol, active, shadow⟩ :=
        Comparator.comparisonOf?_eq_some_iff.mpr ⟨rfl, activeSome, shadowSome⟩
      obtain ⟨diffs, found, _⟩ := diverges_iff_of_fits
        (c := ⟨symbol, active, shadow⟩) nonneg bid ask
      rw [Comparator.comparePending_eq, Comparator.comparisons, List.filterMap_cons_some known,
        List.filterMap_nil, List.foldlM_cons, recordUnderSymbol, accumulate,
        SymbolStats.recordComparison, found]
      rfl
    · intro cmp cmp' order symbol config activeSome shadowSome once member done
      have known : cmp.comparisonOf? symbol = some ⟨symbol, active, shadow⟩ :=
        Comparator.comparisonOf?_eq_some_iff.mpr ⟨rfl, activeSome, shadowSome⟩
      obtain ⟨diffs, found, recorded⟩ :=
        Comparator.statsOf_comparePending known once member done
      obtain ⟨diffs', found', diverges⟩ := diverges_iff_of_fits
        (c := ⟨symbol, active, shadow⟩) nonneg bid ask
      obtain rfl := Option.some.inj (found.symm.trans found')
      rw [recorded, config, SymbolStats.record_divergences_eq_succ_iff]
      refine diverges.trans ⟨fun above => ?_, whole⟩
      exact above.imp AboveByWhole.exceeds AboveByWhole.exceeds

/-- Two basis points on both sides are counted at a tolerance of one. -/
theorem countsExactly_two_bps : CountsExactly 1 (5000000, 5000100) (5001000, 5001100) :=
  (countsExactly_iff (by decide) _ _).mpr
    ⟨.inr (by decide), .inr (by decide), fun _ => .inl ⟨by decide, by decide⟩⟩

/-- A bid that differs by 1.9 basis points is not counted at a tolerance of one. -/
theorem not_countsExactly_fraction :
    ¬CountsExactly 1 (10000000, 10000100) (10001900, 10000100) := by
  intro counts
  obtain ⟨diffs, found, counted⟩ := counts.diverges_iff
  have rounded : (Comparison.mk "" (10000000, 10000100) (10001900, 10000100)).diffs? =
    some (1, 0) := by decide
  obtain rfl := Option.some.inj (found.symm.trans rounded)
  have exceeds : Exceeds 1 10000000 10001900 := by
    rw [Exceeds]
    decide
  exact absurd (counted.mpr (.inl exceeds)) (by decide)

end TradingConnectivity.Shadow
