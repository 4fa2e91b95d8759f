import TradingConnectivity.Shadow.Comparator
import TradingConnectivity.ToMathlib.KeyedFold

/-! # What a comparison records

A comparison puts the prices of one symbol on the two streams side by side. A tick makes one for
each pending symbol that is known on both streams, and records it in the statistics of that symbol
(`comparePending_eq`).
-/

namespace TradingConnectivity.Shadow

/-- The prices of one symbol on the two streams. -/
structure Comparison where
  symbol : String
  active : Bbo
  shadow : Bbo
deriving DecidableEq

/-- The differences on the bid and on the ask side. -/
def Comparison.diffs? (c : Comparison) : Option (Int64 × Int64) := do
  let bidDiffBps ← diffBps c.active.1 c.shadow.1
  let askDiffBps ← diffBps c.active.2 c.shadow.2
  return (bidDiffBps, askDiffBps)

theorem Comparison.diffs?_eq_some_iff {c : Comparison} {diffs : Int64 × Int64} :
    c.diffs? = some diffs ↔ diffBps c.active.1 c.shadow.1 = some diffs.1 ∧
      diffBps c.active.2 c.shadow.2 = some diffs.2 := by
  simp only [diffs?, Option.bind_eq_bind, Option.bind_eq_some_iff, Option.pure_def,
    Option.some.injEq]
  constructor
  · rintro ⟨bid, bidSome, ask, askSome, rfl⟩
    exact ⟨bidSome, askSome⟩
  · rintro ⟨bidSome, askSome⟩
    exact ⟨diffs.1, bidSome, diffs.2, askSome, rfl⟩

/-- A difference is above the tolerance. -/
def Diverges (toleranceBps : Int64) (diffs : Int64 × Int64) : Prop :=
  diffs.1 > toleranceBps ∨ diffs.2 > toleranceBps

instance (toleranceBps : Int64) (diffs : Int64 × Int64) : Decidable (Diverges toleranceBps diffs) :=
  inferInstanceAs (Decidable (_ ∨ _))

namespace SymbolStats

/-- The statistics after one more comparison, unless it panics. -/
def recordComparison (toleranceBps : Int64) (stats : SymbolStats) (c : Comparison) :
    Option SymbolStats :=
  c.diffs?.map fun diffs => stats.record toleranceBps diffs.1 diffs.2

variable {toleranceBps : Int64} {stats stats' : SymbolStats} {bid ask : Int64} {c : Comparison}

@[simp] theorem record_divergences : (stats.record toleranceBps bid ask).divergences =
    if Diverges toleranceBps (bid, ask) then stats.divergences + 1 else stats.divergences := rfl

/-- The counter of divergences shows whether the last comparison was one. -/
theorem record_divergences_eq_succ_iff :
    (stats.record toleranceBps bid ask).divergences = stats.divergences + 1 ↔
      Diverges toleranceBps (bid, ask) := by
  rw [record_divergences]
  by_cases diverges : Diverges toleranceBps (bid, ask)
  · simp only [diverges, if_true]
  · have moved : stats.divergences ≠ stats.divergences + 1 := by grind
    simp only [diverges, moved, if_false]

theorem recordComparison_eq_some_iff : stats.recordComparison toleranceBps c = some stats' ↔
    ∃ diffs, c.diffs? = some diffs ∧ stats.record toleranceBps diffs.1 diffs.2 = stats' := by
  rw [recordComparison, Option.map_eq_some_iff]

end SymbolStats

/-- Record one comparison under its symbol. -/
def recordUnderSymbol (toleranceBps : Int64) (stats : Std.ExtTreeMap String SymbolStats)
    (c : Comparison) : Option (Std.ExtTreeMap String SymbolStats) :=
  accumulate Comparison.symbol SymbolStats.new (SymbolStats.recordComparison toleranceBps) stats c

namespace Comparator

/-- The comparison of a symbol that is known on both streams. -/
def comparisonOf? (cmp : Comparator) (symbol : String) : Option Comparison := do
  let active ← cmp.activeBbo[symbol]?
  let shadow ← cmp.shadowBbo[symbol]?
  return ⟨symbol, active, shadow⟩

/-- The comparisons of the symbols of an iteration. -/
def comparisons (cmp : Comparator) (order : List String) : List Comparison :=
  order.filterMap cmp.comparisonOf?

/-- The statistics of a symbol, empty before its first comparison. -/
def statsOf (cmp : Comparator) (symbol : String) : SymbolStats :=
  (cmp.stats[symbol]?).getD (.new symbol)

theorem comparisonOf?_eq_some_iff {cmp : Comparator} {symbol : String} {c : Comparison} :
    cmp.comparisonOf? symbol = some c ↔ c.symbol = symbol ∧
      cmp.activeBbo[symbol]? = some c.active ∧ cmp.shadowBbo[symbol]? = some c.shadow := by
  simp only [comparisonOf?, Option.bind_eq_bind, Option.bind_eq_some_iff, Option.pure_def,
    Option.some.injEq]
  constructor
  · rintro ⟨active, activeSome, shadow, shadowSome, rfl⟩
    exact ⟨rfl, activeSome, shadowSome⟩
  · rintro ⟨rfl, activeSome, shadowSome⟩
    exact ⟨c.active, activeSome, c.shadow, shadowSome, rfl⟩

/-- A symbol is compared exactly when it is known on both streams. -/
private theorem isSome_comparisonOf? (cmp : Comparator) (symbol : String) :
    (cmp.comparisonOf? symbol).isSome =
      (cmp.activeBbo.contains symbol && cmp.shadowBbo.contains symbol) := by
  rw [Std.ExtTreeMap.contains_eq_isSome_getElem?, Std.ExtTreeMap.contains_eq_isSome_getElem?,
    comparisonOf?]
  cases cmp.activeBbo[symbol]? with
  | none => rfl
  | some active =>
    cases cmp.shadowBbo[symbol]? with
    | none => rfl
    | some shadow => rfl

/-- The loop body records the comparison of its symbol. -/
private theorem compareSymbol_eq {cmp : Comparator} {symbol : String} {c : Comparison}
    (known : cmp.comparisonOf? symbol = some c) : cmp.compareSymbol symbol =
      (recordUnderSymbol cmp.config.toleranceBps cmp.stats c).map
        fun stats => { cmp with stats } := by
  obtain ⟨rfl, active, shadow⟩ := comparisonOf?_eq_some_iff.mp known
  rw [compareSymbol, active, shadow, recordUnderSymbol, accumulate,
    SymbolStats.recordComparison, Comparison.diffs?]
  simp only [Option.bind_eq_bind, Option.bind_some]
  cases diffBps c.active.1 c.shadow.1 with
  | none => rfl
  | some bid =>
    cases diffBps c.active.2 c.shadow.2 with
    | none => rfl
    | some ask => rfl

/-- The loop records the comparisons of its iteration in turn. -/
theorem foldlM_compareSymbol (cmp : Comparator) (order : List String) :
    (cmp.comparable order).foldlM compareSymbol cmp =
      ((cmp.comparisons order).foldlM (recordUnderSymbol cmp.config.toleranceBps) cmp.stats).map
        fun stats => { cmp with stats } := by
  induction order generalizing cmp with
  | nil => rfl
  | cons symbol rest ih =>
    have both := isSome_comparisonOf? cmp symbol
    cases known : cmp.comparisonOf? symbol with
    | none =>
      rw [known] at both
      rw [comparable, List.filter_cons_of_neg (by rw [← both]; exact Bool.false_ne_true),
        comparisons, List.filterMap_cons_none known]
      exact ih cmp
    | some c =>
      rw [known] at both
      rw [comparable, List.filter_cons_of_pos (by exact both.symm), comparisons,
        List.filterMap_cons_some known, List.foldlM_cons, List.foldlM_cons, compareSymbol_eq known]
      cases recordUnderSymbol cmp.config.toleranceBps cmp.stats c with
      | none => rfl
      | some stats => exact ih { cmp with stats }

/-- An iteration makes one comparison of each of its symbols that is known on both streams. -/
theorem comparisons_filter {cmp : Comparator} {order : List String} {symbol : String}
    {c : Comparison} (known : cmp.comparisonOf? symbol = some c) (once : order.Nodup)
    (member : symbol ∈ order) : (cmp.comparisons order).filter (·.symbol = symbol) = [c] := by
  have keys : ∀ s, (cmp.comparisonOf? s).filter (·.symbol = symbol) =
      if s = symbol then cmp.comparisonOf? s else none := by
    intro s
    cases found : cmp.comparisonOf? s with
    | none => rw [ite_self]; rfl
    | some other =>
      obtain ⟨rfl, _, _⟩ := comparisonOf?_eq_some_iff.mp found
      simp only [Option.filter_some, decide_eq_true_eq]
  have single : order.filter (· = symbol) = [symbol] := by
    rw [List.filter_eq, List.count_eq_one_of_mem once member, List.replicate_one]
  calc (cmp.comparisons order).filter (·.symbol = symbol)
      = order.filterMap fun s => if s = symbol then cmp.comparisonOf? s else none := by
        rw [comparisons, List.filter_filterMap]
        exact List.filterMap_congr fun s _ => keys s
    _ = (order.filter (· = symbol)).filterMap cmp.comparisonOf? := by
        rw [List.filterMap_filter]
        simp only [decide_eq_true_eq]
    _ = [c] := by
        rw [single, List.filterMap_cons_some known, List.filterMap_nil]

/-- The comparison of the pending symbols changes nothing but the statistics, which gain the
comparisons of the iteration. -/
theorem comparePending_eq (cmp : Comparator) (order : List String) :
    cmp.comparePending order =
      ((cmp.comparisons order).foldlM (recordUnderSymbol cmp.config.toleranceBps) cmp.stats).map
        fun stats => { cmp with pending := ∅, stats } :=
  foldlM_compareSymbol { cmp with pending := ∅ } order

/-- A pending symbol that is known on both streams gets one more sample. -/
theorem statsOf_comparePending {cmp cmp' : Comparator} {order : List String} {symbol : String}
    {c : Comparison} (known : cmp.comparisonOf? symbol = some c) (once : order.Nodup)
    (member : symbol ∈ order) (done : cmp.comparePending order = some cmp') :
    ∃ diffs, c.diffs? = some diffs ∧ cmp'.statsOf symbol =
      (cmp.statsOf symbol).record cmp.config.toleranceBps diffs.1 diffs.2 := by
  rw [comparePending_eq] at done
  obtain ⟨stats, recorded, rfl⟩ := Option.map_eq_some_iff.mp done
  have own := foldlM_accumulate recorded symbol
  rw [comparisons_filter known once member, List.foldlM_cons] at own
  obtain ⟨next, applied, rest⟩ := Option.bind_eq_some_iff.mp own
  obtain ⟨diffs, found, rfl⟩ := SymbolStats.recordComparison_eq_some_iff.mp applied
  exact ⟨diffs, found, (Option.some.inj rest).symm⟩

end Comparator

end TradingConnectivity.Shadow
