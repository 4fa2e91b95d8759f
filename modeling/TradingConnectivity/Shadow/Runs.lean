import Mathlib.Algebra.BigOperators.Group.List.Lemmas
import TradingConnectivity.Shadow.Divergence

/-! # Runs of the comparator

Frames arrive on the two streams and ticks compare what they updated. `Reaches` keeps the
comparisons of all ticks next to the state, and the statistics are determined by them
(`Reaches.sumsUp_statsOf`): counters that wrap at 64 bits and the largest differences.
-/

namespace TradingConnectivity.Shadow

/-- One event of a run. -/
inductive Input
  | activeFrame (buf : List UInt8)
  | shadowFrame (buf : List UInt8)
  | tick
deriving DecidableEq

/-- The states after a run that did not panic, with the comparisons that its ticks made. A tick
meets the pending symbols in any order. -/
inductive Reaches (config : CompareConfig) : List Input → List Comparison → Comparator → Prop
  | new : Reaches config [] [] (.new config)
  | activeFrame {inputs : List Input} {made : List Comparison} {cmp : Comparator}
      (before : Reaches config inputs made cmp) (buf : List UInt8) :
      Reaches config (inputs ++ [.activeFrame buf]) made
        { cmp with activeRx := cmp.activeRx ++ [buf] }
  | shadowFrame {inputs : List Input} {made : List Comparison} {cmp : Comparator}
      (before : Reaches config inputs made cmp) (buf : List UInt8) :
      Reaches config (inputs ++ [.shadowFrame buf]) made
        { cmp with shadowRx := cmp.shadowRx ++ [buf] }
  | tick {inputs : List Input} {made : List Comparison} {cmp cmp' : Comparator}
      {order : List String} (before : Reaches config inputs made cmp) (once : order.Nodup)
      (pending : ∀ symbol, symbol ∈ order ↔ symbol ∈ cmp.drainActive.drainShadow.pending)
      (done : cmp.tick order = some cmp') :
      Reaches config (inputs ++ [.tick]) (made ++ cmp.drainActive.drainShadow.comparisons order)
        cmp'

/-- A side of the comparison exceeds the tolerance. -/
def Comparison.OutOfTolerance (toleranceBps : Int64) (c : Comparison) : Prop :=
  Exceeds toleranceBps c.active.1 c.shadow.1 ∨ Exceeds toleranceBps c.active.2 c.shadow.2

/-- A computed difference of the comparison is above the tolerance. -/
def Comparison.Counted (toleranceBps : Int64) (c : Comparison) : Prop :=
  ∃ diffs ∈ c.diffs?, Diverges toleranceBps diffs

instance (toleranceBps : Int64) (c : Comparison) : Decidable (c.Counted toleranceBps) :=
  inferInstanceAs (Decidable (∃ diffs ∈ _, _))

/-- The larger computed difference. -/
def Comparison.largest (c : Comparison) : ℤ :=
  (c.diffs?).elim 0 fun diffs => max diffs.1.toInt diffs.2.toInt

private theorem Comparison.counted_iff {toleranceBps : Int64} {c : Comparison}
    {diffs : Int64 × Int64}
    (found : c.diffs? = some diffs) : c.Counted toleranceBps ↔ Diverges toleranceBps diffs := by
  constructor
  · rintro ⟨other, member, diverges⟩
    obtain rfl := Option.some.inj (found.symm.trans member)
    exact diverges
  · intro diverges
    exact ⟨diffs, found, diverges⟩

/-- What is counted exceeds the tolerance. -/
theorem Comparison.Counted.outOfTolerance {toleranceBps : Int64} (nonneg : 0 ≤ toleranceBps)
    {c : Comparison} (counted : c.Counted toleranceBps) : c.OutOfTolerance toleranceBps := by
  obtain ⟨diffs, found, diverges⟩ := counted
  obtain ⟨bid, ask⟩ := Comparison.diffs?_eq_some_iff.mp found
  exact diverges.imp (exceeds_of_diffBps nonneg bid) (exceeds_of_diffBps nonneg ask)

/-- The larger difference of a counted comparison is positive. -/
theorem Comparison.Counted.largest_pos {toleranceBps : Int64} (nonneg : 0 ≤ toleranceBps)
    {c : Comparison} (counted : c.Counted toleranceBps) : 0 < c.largest := by
  obtain ⟨diffs, found, diverges⟩ := counted
  have tolerance : 0 ≤ toleranceBps.toInt := Int64.le_iff_toInt_le.mp nonneg
  rw [Comparison.largest, found, Option.elim_some, lt_max_iff]
  exact diverges.imp (fun bid => tolerance.trans_lt (Int64.lt_iff_toInt_lt.mp bid))
    (fun ask => tolerance.trans_lt (Int64.lt_iff_toInt_lt.mp ask))

section Compared

variable (toleranceBps : Int64) (cs : List Comparison)

/-- The number of counted comparisons. -/
def divergencesOf : ℕ := cs.countP fun c => c.Counted toleranceBps

/-- The largest computed difference, if any is positive. -/
def peakOf : ℤ := (cs.map Comparison.largest).foldl max 0

/-- Counters of 64 bits show a divergence. -/
def Diverged : Prop :=
  UInt64.ofNat cs.length ≠ 0 ∧ UInt64.ofNat (divergencesOf toleranceBps cs) ≠ 0

instance : Decidable (Diverged toleranceBps cs) := inferInstanceAs (Decidable (_ ∧ _))

end Compared

/-- The statistics of a symbol sum up some comparisons, after earlier ones. -/
structure SumsUp (toleranceBps : Int64) (cs : List Comparison) (stats stats' : SymbolStats) :
    Prop where
  symbol : stats'.symbol = stats.symbol
  samples : stats'.samples = stats.samples + UInt64.ofNat cs.length
  divergences : stats'.divergences =
    stats.divergences + UInt64.ofNat (cs.countP fun c => c.Counted toleranceBps)
  peak : (max stats'.maxBidDiffBps stats'.maxAskDiffBps).toInt =
    (cs.map Comparison.largest).foldl max (max stats.maxBidDiffBps stats.maxAskDiffBps).toInt

/-- One recorded comparison. -/
theorem sumsUp_record {toleranceBps : Int64} {c : Comparison} {stats : SymbolStats}
    {diffs : Int64 × Int64} (found : c.diffs? = some diffs) :
    SumsUp toleranceBps [c] stats (stats.record toleranceBps diffs.1 diffs.2) where
  symbol := rfl
  samples := rfl
  divergences := by
    rw [SymbolStats.record_divergences, List.countP_singleton]
    simp only [Comparison.counted_iff found, decide_eq_true_eq]
    split
    · rfl
    · exact (UInt64.add_zero _).symm
  peak := by
    rw [List.map_singleton, List.foldl_cons, List.foldl_nil, Comparison.largest, found,
      Option.elim_some, SymbolStats.record]
    simp only [Int64.toInt_max]
    exact max_max_max_comm _ _ _ _

/-- Comparisons are summed up in turn. -/
theorem SumsUp.append {toleranceBps : Int64} {first second : List Comparison}
    {stats stats' stats'' : SymbolStats} (left : SumsUp toleranceBps first stats stats')
    (right : SumsUp toleranceBps second stats' stats'') :
    SumsUp toleranceBps (first ++ second) stats stats'' where
  symbol := right.symbol.trans left.symbol
  samples := by
    rw [right.samples, left.samples, List.length_append, UInt64.ofNat_add, UInt64.add_assoc]
  divergences := by
    rw [right.divergences, left.divergences, List.countP_append, UInt64.ofNat_add,
      UInt64.add_assoc]
  peak := by
    rw [right.peak, left.peak, List.map_append, List.foldl_append]

private theorem sumsUp_of_foldlM {toleranceBps : Int64} {cs : List Comparison}
    {stats stats' : SymbolStats}
    (done : cs.foldlM (SymbolStats.recordComparison toleranceBps) stats = some stats') :
    SumsUp toleranceBps cs stats stats' := by
  induction cs generalizing stats with
  | nil =>
    obtain rfl := Option.some.inj done
    exact ⟨rfl, (UInt64.add_zero _).symm, (UInt64.add_zero _).symm, rfl⟩
  | cons c rest ih =>
    rw [List.foldlM_cons] at done
    obtain ⟨next, applied, others⟩ := Option.bind_eq_some_iff.mp done
    obtain ⟨diffs, found, rfl⟩ := SymbolStats.recordComparison_eq_some_iff.mp applied
    exact (sumsUp_record found).append (ih others)

namespace Comparator

@[simp] theorem drain_nil (state : Std.ExtTreeMap String Bbo × Finset String) :
    drain [] state = state := rfl

theorem drain_cons {buf : List UInt8} {symbol : String} {prices : Bbo}
    (found : bboOf? buf = some (symbol, prices)) (rest : List (List UInt8))
    (state : Std.ExtTreeMap String Bbo × Finset String) : drain (buf :: rest) state =
      drain rest (state.1.insert symbol prices, insert symbol state.2) := by
  rw [drain, List.foldl_cons, found]
  rfl

end Comparator

/-- The configuration stays, and the statistics are what the comparisons of the run make of empty
ones. -/
theorem Reaches.stats_eq {config : CompareConfig} {inputs : List Input} {made : List Comparison}
    {cmp : Comparator} (reached : Reaches config inputs made cmp) : cmp.config = config ∧
      made.foldlM (recordUnderSymbol config.toleranceBps) ∅ = some cmp.stats := by
  induction reached with
  | new => exact ⟨rfl, rfl⟩
  | activeFrame before buf ih => exact ih
  | shadowFrame before buf ih => exact ih
  | tick before once pending done ih =>
    obtain ⟨rfl, recorded⟩ := ih
    rw [Comparator.tick, Comparator.comparePending_eq] at done
    obtain ⟨stats, added, rfl⟩ := Option.map_eq_some_iff.mp done
    refine ⟨rfl, ?_⟩
    rw [List.foldlM_append, recorded]
    exact added

/-- A symbol has statistics exactly when it was compared. -/
theorem Reaches.mem_stats_iff {config : CompareConfig} {inputs : List Input}
    {made : List Comparison} {cmp : Comparator} (reached : Reaches config inputs made cmp)
    {symbol : String} : symbol ∈ cmp.stats ↔ symbol ∈ made.map Comparison.symbol := by
  rw [mem_foldlM_accumulate reached.stats_eq.2]
  exact or_iff_right Std.ExtTreeMap.not_mem_empty

/-- The statistics of a symbol sum up its comparisons. -/
theorem Reaches.sumsUp_statsOf {config : CompareConfig} {inputs : List Input}
    {made : List Comparison} {cmp : Comparator} (reached : Reaches config inputs made cmp)
    (symbol : String) :
    SumsUp config.toleranceBps (made.filter (·.symbol = symbol)) (.new symbol)
      (cmp.statsOf symbol) := by
  have own := foldlM_accumulate reached.stats_eq.2 symbol
  rw [Std.ExtTreeMap.getElem?_empty] at own
  exact sumsUp_of_foldlM own

end TradingConnectivity.Shadow
