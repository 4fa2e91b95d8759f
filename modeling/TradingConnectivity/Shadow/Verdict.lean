import Mathlib.Data.Int.ConditionallyCompleteOrder
import Mathlib.Data.List.MinMax
import Mathlib.Data.Rat.Cast.Order
import Mathlib.Algebra.Order.Field.Basic
import TradingConnectivity.ConnectorCore.MessageCodec
import TradingConnectivity.Shadow.Rounds

/-! # What a stable verdict says

A verdict is stable when the total number of rounds reaches the threshold and no divergence with a
name is the worst (`Reaches.verdict_eq_stable_iff`). `stable_backed_iff` tells for which frames and
ticks that leaves out a symbol or a difference.
-/

namespace TradingConnectivity.Shadow

open ConnectorCore (NormalizedMessage schemaVersion tsNone u16Max)

/-- The iterations of the statistics. -/
structure Comparator.Enumerates (cmp : Comparator) (order : List String) : Prop where
  once : order.Nodup
  symbols : ∀ symbol, symbol ∈ order ↔ symbol ∈ cmp.stats

/-- Without an allowance a symbol is acceptable as long as its counters show no divergence. -/
theorem SymbolStats.isAcceptable_iff {stats : SymbolStats} {config : CompareConfig}
    (zero : config.maxDivergencePct = 0) :
    stats.isAcceptable config ↔ stats.samples = 0 ∨ stats.divergences = 0 := by
  rw [isAcceptable, decide_eq_true_eq, zero, divergencePct]
  by_cases empty : stats.samples = 0
  · simp only [empty, if_true, le_refl, true_or]
  · have positive : (0 : ℚ) < stats.samples.toNat := by
      have nonzero : stats.samples.toNat ≠ 0 := fun equal => empty (UInt64.toNat_inj.mp equal)
      exact_mod_cast Nat.pos_of_ne_zero nonzero
    rw [if_neg empty, or_iff_right empty]
    constructor
    · intro small
      have ratio : (stats.divergences.toNat : ℚ) / stats.samples.toNat ≤ 0 :=
        nonpos_of_mul_nonpos_left small (by norm_num)
      rw [div_le_iff₀ positive, zero_mul] at ratio
      exact UInt64.toNat_inj.mp (Nat.le_zero.mp (by exact_mod_cast ratio))
    · intro undiverged
      rw [undiverged]
      simp

private theorem Comparator.worse_eq (config : CompareConfig) (worst : String × Int64)
    (stats : SymbolStats) : worse config worst stats =
      if ¬stats.isAcceptable config ∧
          worst.2.toInt < (max stats.maxBidDiffBps stats.maxAskDiffBps).toInt then
        (stats.symbol, max stats.maxBidDiffBps stats.maxAskDiffBps)
      else worst := by
  rw [worse, ite_and]
  simp only [gt_iff_lt, Int64.lt_iff_toInt_lt]

/-- The worst symbol so far with its difference, or neither. -/
structure Tracks (peak : String → ℤ) (worst : String × Int64) (first : Option String) : Prop where
  name : worst.1 = first.getD ""
  diff : worst.2.toInt = first.elim 0 peak

/-- The first of the largest peaks wins. -/
theorem tracks_foldl_worse {config : CompareConfig} {stats : String → SymbolStats}
    {peak : String → ℤ} {bad : String → Prop} [DecidablePred bad]
    (named : ∀ s, (stats s).symbol = s)
    (largest : ∀ s, (max (stats s).maxBidDiffBps (stats s).maxAskDiffBps).toInt = peak s)
    (unacceptable : ∀ s, ¬(stats s).isAcceptable config ↔ bad s)
    (positive : ∀ s, bad s → 0 < peak s) (order : List String) :
    Tracks peak ((order.map stats).foldl (Comparator.worse config) ("", 0))
      ((order.filter bad).argmax peak) := by
  induction order using List.reverseRecOn with
  | nil => exact ⟨rfl, rfl⟩
  | append_singleton before s ih =>
    rw [List.map_append, List.map_singleton, List.foldl_append, List.foldl_cons, List.foldl_nil,
      List.filter_append, Comparator.worse_eq, largest, named]
    simp only [unacceptable, ih.diff]
    by_cases isBad : bad s
    · rw [List.filter_cons_of_pos (by rwa [decide_eq_true_eq]), List.filter_nil,
        List.argmax_concat]
      cases earlier : (before.filter bad).argmax peak with
      | none =>
        rw [Option.elim_none, if_pos ⟨isBad, positive s isBad⟩]
        exact ⟨rfl, largest s⟩
      | some t =>
        rw [Option.elim_some]
        by_cases larger : peak t < peak s
        · simp only [isBad, larger, and_self, if_true]
          exact ⟨rfl, largest s⟩
        · simp only [larger, and_false, if_false]
          rwa [earlier] at ih
    · rw [if_neg (fun both => isBad both.1),
        List.filter_cons_of_neg (by rwa [decide_eq_true_eq]), List.filter_nil, List.append_nil]
      exact ih

private theorem sum_map_ofNat {α : Type*} (f : α → ℕ) (xs : List α) :
    (xs.map fun x => UInt64.ofNat (f x)).sum = UInt64.ofNat (xs.map f).sum := by
  induction xs with
  | nil => rfl
  | cons x rest ih =>
    rw [List.map_cons, List.sum_cons, List.map_cons, List.sum_cons, ih, UInt64.ofNat_add]

section Run

variable {config : CompareConfig} {inputs : List Input} {made : List Comparison}
  {cmp : Comparator} {order : List String}

/-- The samples of a symbol are its rounds. -/
private theorem Reaches.samples_statsOf (reached : Reaches config inputs made cmp)
    (symbol : String) :
    (cmp.statsOf symbol).samples = UInt64.ofNat (rounds inputs symbol).length := by
  rw [(reached.sumsUp_statsOf symbol).samples, reached.rounds_eq]
  exact UInt64.zero_add _

private theorem Reaches.divergences_statsOf (reached : Reaches config inputs made cmp)
    (symbol : String) :
    (cmp.statsOf symbol).divergences =
      UInt64.ofNat (divergencesOf config.toleranceBps (rounds inputs symbol)) := by
  rw [(reached.sumsUp_statsOf symbol).divergences, reached.rounds_eq]
  exact UInt64.zero_add _

private theorem Reaches.peak_statsOf (reached : Reaches config inputs made cmp) (symbol : String) :
    (max (cmp.statsOf symbol).maxBidDiffBps (cmp.statsOf symbol).maxAskDiffBps).toInt =
      peakOf (rounds inputs symbol) := by
  rw [← reached.rounds_eq]
  exact (reached.sumsUp_statsOf symbol).peak

/-- The total is the number of rounds of the run. -/
theorem Reaches.sum_samples (reached : Reaches config inputs made cmp)
    (enumerates : cmp.Enumerates order) :
    (order.map fun symbol => (cmp.statsOf symbol).samples).sum =
      UInt64.ofNat (totalRounds inputs) := by
  have symbols : order.Perm (made.map Comparison.symbol).dedup := by
    rw [List.perm_ext_iff_of_nodup enumerates.once (List.nodup_dedup _)]
    intro symbol
    rw [enumerates.symbols, reached.mem_stats_iff, List.mem_dedup]
  have counts (symbol : String) :
      (rounds inputs symbol).length = (made.map Comparison.symbol).count symbol := by
    rw [← reached.rounds_eq, List.count, List.countP_map, ← List.countP_eq_length_filter]
    rfl
  calc (order.map fun symbol => (cmp.statsOf symbol).samples).sum
      = (order.map fun symbol => UInt64.ofNat (rounds inputs symbol).length).sum := by
        simp only [reached.samples_statsOf]
    _ = UInt64.ofNat (order.map fun symbol => (rounds inputs symbol).length).sum :=
        sum_map_ofNat _ _
    _ = UInt64.ofNat made.length := by
        simp only [counts]
        rw [(symbols.map _).sum_eq]
        congr 1
        exact (List.sum_map_count_dedup_eq_length _).trans (List.length_map _)
    _ = UInt64.ofNat (totalRounds inputs) := by rw [reached.length_made]

/-- Enough rounds for a verdict, as the 64-bit total counts them. -/
def Judged (config : CompareConfig) (inputs : List Input) : Prop :=
  config.minSamples ≤ UInt64.ofNat (totalRounds inputs)

instance (config : CompareConfig) (inputs : List Input) : Decidable (Judged config inputs) :=
  inferInstanceAs (Decidable (_ ≤ _))

/-- The symbols whose rounds show a divergence, in the order of the iteration. -/
def divergedIn (toleranceBps : Int64) (inputs : List Input) (order : List String) :
    List String :=
  order.filter fun symbol => Diverged toleranceBps (rounds inputs symbol)

/-- The first symbol with the largest difference among those that diverged. -/
noncomputable def worstIn (toleranceBps : Int64) (inputs : List Input) (order : List String) :
    Option String :=
  (divergedIn toleranceBps inputs order).argmax fun symbol => peakOf (rounds inputs symbol)

/-- The first of the largest divergences belongs to a symbol with a name. -/
def Named (toleranceBps : Int64) (inputs : List Input) (order : List String) : Prop :=
  ∃ symbol, worstIn toleranceBps inputs order = some symbol ∧ symbol ≠ ""

/-- Rounds that show a divergence contain one that is counted. -/
private theorem Diverged.exists_counted {toleranceBps : Int64} {cs : List Comparison}
    (diverged : Diverged toleranceBps cs) : ∃ c ∈ cs, c.Counted toleranceBps := by
  have positive : 0 < divergencesOf toleranceBps cs := by
    apply Nat.pos_of_ne_zero
    intro zero
    exact diverged.2 (congrArg UInt64.ofNat zero)
  obtain ⟨c, member, counted⟩ := List.countP_pos_iff.mp positive
  exact ⟨c, member, of_decide_eq_true counted⟩

private theorem largest_le_peakOf {cs : List Comparison} {c : Comparison} (member : c ∈ cs) :
    c.largest ≤ peakOf cs := by
  have maximum : (0 :: cs.map Comparison.largest).max? = some (peakOf cs) := List.max?_cons'
  exact (List.max?_eq_some_iff.mp maximum).2 _ (List.mem_cons_of_mem _ (List.mem_map_of_mem member))

private theorem Diverged.peak_pos {toleranceBps : Int64} (nonneg : 0 ≤ toleranceBps)
    {cs : List Comparison} (diverged : Diverged toleranceBps cs) : 0 < peakOf cs := by
  obtain ⟨c, member, counted⟩ := diverged.exists_counted
  exact (counted.largest_pos nonneg).trans_le (largest_le_peakOf member)

/-- The values of the statistics, symbol by symbol. -/
theorem Comparator.Enumerates.values (enumerates : cmp.Enumerates order) :
    order.filterMap (cmp.stats[·]?) = order.map cmp.statsOf := by
  rw [← List.filterMap_eq_map]
  refine List.filterMap_congr fun symbol member => ?_
  have present := (enumerates.symbols symbol).mp member
  rw [Function.comp_apply, Comparator.statsOf, Std.ExtTreeMap.getElem?_eq_some_getElem present]
  rfl

/-- The loop over the statistics finds a name exactly when one is the worst. -/
theorem Reaches.worst_ne_empty_iff (reached : Reaches config inputs made cmp)
    (zero : config.maxDivergencePct = 0) (nonneg : 0 ≤ config.toleranceBps)
    (order : List String) :
    ((order.map cmp.statsOf).foldl (Comparator.worse config) ("", 0)).1 ≠ "" ↔
      Named config.toleranceBps inputs order := by
  have unacceptable (s : String) : ¬(cmp.statsOf s).isAcceptable config ↔
      Diverged config.toleranceBps (rounds inputs s) := by
    rw [SymbolStats.isAcceptable_iff zero, reached.samples_statsOf, reached.divergences_statsOf,
      not_or]
    rfl
  have tracks := tracks_foldl_worse (fun s => (reached.sumsUp_statsOf s).symbol)
    reached.peak_statsOf unacceptable (fun s => Diverged.peak_pos nonneg) order
  rw [tracks.name, Named, worstIn, divergedIn]
  cases (order.filter fun s => Diverged config.toleranceBps (rounds inputs s)).argmax
    fun s => peakOf (rounds inputs s) with
  | none =>
    rw [Option.getD_none]
    simp only [reduceCtorEq, false_and, exists_false, ne_eq, not_true]
  | some s =>
    rw [Option.getD_some]
    simp only [Option.some.injEq, exists_eq_left']

/-- What the frames and ticks of a run say about a stable verdict. -/
theorem Reaches.verdict_eq_stable_iff (reached : Reaches config inputs made cmp)
    (zero : config.maxDivergencePct = 0) (nonneg : 0 ≤ config.toleranceBps)
    (enumerates : cmp.Enumerates order) :
    cmp.verdict order = .stable ↔
      Judged config inputs ∧ ¬Named config.toleranceBps inputs order := by
  have named := reached.worst_ne_empty_iff zero nonneg order
  rw [Comparator.verdict, reached.stats_eq.1, enumerates.values, List.map_map]
  simp only [Function.comp_def, reached.sum_samples enumerates]
  split
  · rename_i few
    constructor
    · intro impossible
      cases impossible
    · rintro ⟨judged, _⟩
      exact absurd few (UInt64.not_lt.mpr judged)
  · rename_i enough
    split
    · rename_i worst
      constructor
      · intro impossible
        cases impossible
      · rintro ⟨_, unnamed⟩
        exact absurd (named.mp worst) unnamed
    · rename_i nobody
      exact ⟨fun _ => ⟨UInt64.not_lt.mp enough, mt named.mpr nobody⟩, fun _ => rfl⟩

/-- A best-bid-offer frame of the symbol arrived on a stream. -/
def Appeared (inputs : List Input) (symbol : String) : Prop :=
  ∃ buf prices, bboOf? buf = some (symbol, prices) ∧
    (.activeFrame buf ∈ inputs ∨ .shadowFrame buf ∈ inputs)

/-- Every symbol was compared often enough, and no comparison exceeded the tolerance. -/
structure Backed (config : CompareConfig) (inputs : List Input) (made : List Comparison) :
    Prop where
  sampled : ∀ symbol, Appeared inputs symbol →
    config.minSamples.toNat ≤ (made.filter (·.symbol = symbol)).length
  within : ∀ c ∈ made, ¬c.OutOfTolerance config.toleranceBps

/-- What the total and the counters leave out. -/
inductive Misses (config : CompareConfig) (inputs : List Input) (order : List String) : Prop
  /-- A symbol has too few rounds: the others make up for it in the total. -/
  | lopsided (symbol : String) (appeared : Appeared inputs symbol)
      (few : (rounds inputs symbol).length < config.minSamples.toNat)
  /-- Prices that meet in a round exceed the tolerance, and the truncated 64-bit quotient does
  not. -/
  | overlooked (symbol : String) (c : Comparison) (member : c ∈ rounds inputs symbol)
      (exceeds : c.OutOfTolerance config.toleranceBps) (uncounted : ¬c.Counted config.toleranceBps)
  /-- A counter of a symbol that diverged has wrapped around to zero. -/
  | wrapped (symbol : String) (c : Comparison) (member : c ∈ rounds inputs symbol)
      (counted : c.Counted config.toleranceBps)
      (wraps : 2 ^ 64 ∣ (rounds inputs symbol).length ∨
        2 ^ 64 ∣ divergencesOf config.toleranceBps (rounds inputs symbol))
  /-- The worst symbol has the empty name, which stands for no symbol. -/
  | unnamed (first : worstIn config.toleranceBps inputs order = some "")

/-- A counted comparison does not lead to a name only if a counter wrapped or the name is empty. -/
theorem Reaches.misses_of_counted (reached : Reaches config inputs made cmp)
    (enumerates : cmp.Enumerates order) (unnamed : ¬Named config.toleranceBps inputs order)
    {c : Comparison} (member : c ∈ made) (counted : c.Counted config.toleranceBps) :
    Misses config inputs order := by
  by_cases diverged : Diverged config.toleranceBps (rounds inputs c.symbol)
  · have present : c.symbol ∈ divergedIn config.toleranceBps inputs order := by
      refine List.mem_filter.mpr ⟨?_, decide_eq_true diverged⟩
      rw [enumerates.symbols, reached.mem_stats_iff]
      exact List.mem_map_of_mem member
    have nonempty : worstIn config.toleranceBps inputs order ≠ none :=
      mt List.argmax_eq_none.mp (List.ne_nil_of_mem present)
    obtain ⟨first, found⟩ := Option.ne_none_iff_exists'.mp nonempty
    by_cases empty : first = ""
    · exact .unnamed (empty ▸ found)
    · exact absurd ⟨first, found, empty⟩ unnamed
  · rw [Diverged, not_and_or, not_not, not_not, UInt64.ofNat_eq_zero_iff,
      UInt64.ofNat_eq_zero_iff] at diverged
    exact .wrapped c.symbol c (reached.mem_made_iff.mp member) counted diverged

/-- Without a named divergence, what is missed is all that a stable verdict lacks. -/
theorem Reaches.not_backed_iff (reached : Reaches config inputs made cmp)
    (nonneg : 0 ≤ config.toleranceBps) (enumerates : cmp.Enumerates order)
    (unnamed : ¬Named config.toleranceBps inputs order) :
    ¬Backed config inputs made ↔ Misses config inputs order := by
  have compared {symbol : String} {c : Comparison} (member : c ∈ rounds inputs symbol) :
      c ∈ made := by
    rw [← reached.rounds_eq] at member
    exact (List.mem_filter.mp member).1
  constructor
  · intro unbacked
    by_cases sampled : ∀ symbol, Appeared inputs symbol →
        config.minSamples.toNat ≤ (rounds inputs symbol).length
    · obtain ⟨c, member, exceeds⟩ : ∃ c ∈ made, c.OutOfTolerance config.toleranceBps := by
        by_contra within
        refine unbacked ⟨fun symbol appeared => ?_, fun c member exceeds =>
          within ⟨c, member, exceeds⟩⟩
        rw [reached.rounds_eq]
        exact sampled symbol appeared
      by_cases counted : c.Counted config.toleranceBps
      · exact reached.misses_of_counted enumerates unnamed member counted
      · exact .overlooked c.symbol c (reached.mem_made_iff.mp member) exceeds counted
    · push Not at sampled
      obtain ⟨symbol, appeared, few⟩ := sampled
      exact .lopsided symbol appeared few
  · rintro misses backed
    cases misses with
    | lopsided symbol appeared few =>
      have enough := backed.sampled symbol appeared
      rw [reached.rounds_eq] at enough
      omega
    | overlooked symbol c member exceeds _ => exact backed.within c (compared member) exceeds
    | wrapped symbol c member counted _ =>
      exact backed.within c (compared member) (counted.outOfTolerance nonneg)
    | unnamed first =>
      have diverged := of_decide_eq_true (List.mem_filter.mp (List.argmax_mem first)).2
      obtain ⟨c, member, counted⟩ := diverged.exists_counted
      exact backed.within c (compared member) (counted.outOfTolerance nonneg)

/-- A stable verdict is backed by every symbol exactly if the frames and ticks of the run give the
symbols too few rounds together, name a divergence, or leave out nothing. -/
theorem stable_backed_iff (reached : Reaches config inputs made cmp)
    (zero : config.maxDivergencePct = 0) (nonneg : 0 ≤ config.toleranceBps)
    (enumerates : cmp.Enumerates order) :
    (cmp.verdict order = .stable → Backed config inputs made) ↔
      ¬(Judged config inputs ∧ ¬Named config.toleranceBps inputs order ∧
        Misses config inputs order) := by
  rw [reached.verdict_eq_stable_iff zero nonneg enumerates]
  constructor
  · rintro backed ⟨judged, unnamed, misses⟩
    exact (reached.not_backed_iff nonneg enumerates unnamed).mpr misses (backed ⟨judged, unnamed⟩)
  · rintro met ⟨judged, unnamed⟩
    by_contra unbacked
    exact met ⟨judged, unnamed,
      (reached.not_backed_iff nonneg enumerates unnamed).mp unbacked⟩

end Run

/-- Every symbol and every prices have a frame. -/
private theorem exists_bboOf? (symbol : String) (fits : symbol.utf8ByteSize ≤ u16Max)
    (prices : Bbo) :
    ∃ buf, bboOf? buf = some (symbol, prices) := by
  let m : NormalizedMessage := .bestBidOffer {
    header := ⟨schemaVersion, .bestBidOffer, .binanceSpot, .spot, 1, 0, 0, 1, 0, tsNone, 0, 0⟩
    symbol, priceScale := 2, qtyScale := 3, bidPrice := prices.1, bidQty := 1000000
    askPrice := prices.2, askQty := 1000000, updateId := 0 }
  obtain ⟨bytes, transmits⟩ := NormalizedMessage.transmits (m := m)
    ⟨rfl, fun s member => (List.mem_singleton.mp member) ▸ fits, by rintro levels ⟨⟩⟩
  refine ⟨bytes ++ [], ?_⟩
  rw [bboOf?, transmits.decodes []]

/-- A tick compares the last prices of the fresh symbols, unless a difference does not fit. -/
theorem Reaches.exists_tick {config : CompareConfig} {inputs : List Input}
    {made cs : List Comparison} {cmp : Comparator}
    (before : Reaches config inputs made cmp) (order : List String) (once : order.Nodup)
    (fresh : ∀ symbol, symbol ∈ order ↔ Fresh inputs symbol)
    (asked : order.filterMap (quoted inputs) = cs) (fits : ∀ c ∈ cs, c.diffs?.isSome) :
    ∃ cmp', Reaches config (inputs ++ [.tick]) (made ++ cs) cmp' := by
  have compared : cmp.drainActive.drainShadow.comparisons order = cs := by
    rw [← asked]
    exact List.filterMap_congr fun symbol _ => (before.follows symbol).drained.1
  have recorded (stats : Std.ExtTreeMap String SymbolStats) :
      ∃ stats', cs.foldlM (recordUnderSymbol config.toleranceBps) stats = some stats' := by
    clear asked compared
    induction cs generalizing stats with
    | nil => exact ⟨stats, rfl⟩
    | cons c rest ih =>
      obtain ⟨first, others⟩ := List.forall_mem_cons.mp fits
      obtain ⟨diffs, found⟩ := Option.isSome_iff_exists.mp first
      rw [List.foldlM_cons, recordUnderSymbol, accumulate, SymbolStats.recordComparison, found]
      exact ih others _
  have same : cmp.drainActive.drainShadow.config = config := before.stats_eq.1
  obtain ⟨stats, done⟩ := recorded cmp.drainActive.drainShadow.stats
  rw [← same, ← compared] at done
  refine ⟨{ cmp.drainActive.drainShadow with pending := ∅, stats }, ?_⟩
  rw [← compared]
  refine before.tick once (fun symbol => ?_) ?_
  · rw [fresh, (before.follows symbol).drained.2]
  · rw [Comparator.tick, Comparator.comparePending_eq, done]
    rfl

/-- Without a counted comparison no symbol diverges. -/
private theorem Reaches.not_diverged {config : CompareConfig} {inputs : List Input}
    {made : List Comparison} {cmp : Comparator} (reached : Reaches config inputs made cmp)
    {toleranceBps : Int64} (uncounted : ∀ c ∈ made, ¬c.Counted toleranceBps) (symbol : String) :
    ¬Diverged toleranceBps (rounds inputs symbol) := by
  intro diverged
  obtain ⟨c, member, counted⟩ := diverged.exists_counted
  rw [← reached.rounds_eq] at member
  exact uncounted c (List.mem_filter.mp member).1 counted

private theorem Reaches.worstIn_eq_none {config : CompareConfig} {inputs : List Input}
    {made : List Comparison} {cmp : Comparator} (reached : Reaches config inputs made cmp)
    {toleranceBps : Int64} (uncounted : ∀ c ∈ made, ¬c.Counted toleranceBps)
    (order : List String) : worstIn toleranceBps inputs order = none := by
  have nobody : divergedIn toleranceBps inputs order = [] := by
    refine List.filter_eq_nil_iff.mpr fun symbol _ => ?_
    rw [decide_eq_true_eq]
    exact reached.not_diverged uncounted symbol
  rw [worstIn, nobody]
  rfl

/-- Enough comparisons, none of them counted, make the verdict stable. -/
private theorem Reaches.stable_of_uncounted {config : CompareConfig} {inputs : List Input}
    {made : List Comparison} {cmp : Comparator} {order : List String}
    (reached : Reaches config inputs made cmp) (zero : config.maxDivergencePct = 0)
    (nonneg : 0 ≤ config.toleranceBps) (enumerates : cmp.Enumerates order)
    (enough : config.minSamples ≤ UInt64.ofNat made.length)
    (uncounted : ∀ c ∈ made, ¬c.Counted config.toleranceBps) : cmp.verdict order = .stable := by
  rw [reached.verdict_eq_stable_iff zero nonneg enumerates, Judged, ← reached.length_made, Named,
    reached.worstIn_eq_none uncounted]
  exact ⟨enough, by rintro ⟨symbol, ⟨⟩, -⟩⟩

def btcPair : Comparison := ⟨"BTCUSDT", (5000000, 5000100), (5000000, 5000100)⟩

def ethPair : Comparison := ⟨"ETHUSDT", (1000000, 1000100), (1000000, 1000100)⟩

/-- One symbol is updated on both streams and another on the active one only. -/
def oneSided (btc eth : List UInt8) : List Input :=
  [.activeFrame eth, .activeFrame btc, .shadowFrame btc, .tick]

/-- The other symbol follows on the shadow stream. -/
def bothSides (btc eth : List UInt8) : List Input := oneSided btc eth ++ [.shadowFrame eth, .tick]

section Frames

variable (config : CompareConfig) {btc eth : List UInt8}
  (btcSome : bboOf? btc = some ("BTCUSDT", 5000000, 5000100))
  (ethSome : bboOf? eth = some ("ETHUSDT", 1000000, 1000100))

include btcSome ethSome

private theorem reaches_oneSided : ∃ cmp, Reaches config (oneSided btc eth) [btcPair] cmp := by
  have sent := ((.new : Reaches config [] [] _).activeFrame eth |>.activeFrame btc).shadowFrame btc
  refine sent.exists_tick ["BTCUSDT", "ETHUSDT"] (by decide) (fun symbol => ?_) ?_ (by decide)
  · simp [Fresh, List.rtakeWhile, Input.symbol?, btcSome, ethSome, or_comm, eq_comm]
  · have both : quoted [.activeFrame eth, .activeFrame btc, .shadowFrame btc] "BTCUSDT" =
        some btcPair := by
      simp [quoted, List.filterMap_cons, Input.active?, Input.shadow?, quoteOf, btcSome, ethSome,
        btcPair]
    have one : quoted [.activeFrame eth, .activeFrame btc, .shadowFrame btc] "ETHUSDT" = none := by
      simp [quoted, List.filterMap_cons, Input.active?, Input.shadow?, quoteOf, btcSome, ethSome]
    exact (List.filterMap_cons_some both).trans (congrArg _ (List.filterMap_cons_none one))

private theorem reaches_bothSides : ∃ cmp, Reaches config (bothSides btc eth)
    [btcPair, ethPair] cmp := by
  obtain ⟨cmp, reached⟩ := reaches_oneSided config btcSome ethSome
  refine (reached.shadowFrame eth).exists_tick ["ETHUSDT"] (by decide) (fun symbol => ?_) ?_
    (by decide)
  · simp [oneSided, Fresh, List.rtakeWhile, Input.symbol?, ethSome, eq_comm]
  · have both : quoted (oneSided btc eth ++ [.shadowFrame eth]) "ETHUSDT" = some ethPair := by
      simp [oneSided, quoted, List.filterMap_cons, Input.active?, Input.shadow?, quoteOf, btcSome,
        ethSome, ethPair]
    exact List.filterMap_cons_some both

end Frames

/-- A symbol that was never compared does not keep the verdict from being stable. -/
theorem stable_not_backed : ∃ btc eth cmp,
    bboOf? btc = some ("BTCUSDT", 5000000, 5000100) ∧
      bboOf? eth = some ("ETHUSDT", 1000000, 1000100) ∧
      Reaches ⟨1, 1, 0⟩ (oneSided btc eth) [btcPair] cmp ∧
      cmp.Enumerates ["BTCUSDT"] ∧ cmp.verdict ["BTCUSDT"] = .stable ∧
      ¬Backed ⟨1, 1, 0⟩ (oneSided btc eth) [btcPair] := by
  obtain ⟨btc, btcSome⟩ := exists_bboOf? "BTCUSDT" (by decide) (5000000, 5000100)
  obtain ⟨eth, ethSome⟩ := exists_bboOf? "ETHUSDT" (by decide) (1000000, 1000100)
  obtain ⟨cmp, reached⟩ := reaches_oneSided ⟨1, 1, 0⟩ btcSome ethSome
  have enumerates : cmp.Enumerates ["BTCUSDT"] :=
    ⟨List.nodup_singleton _, fun _ => reached.mem_stats_iff.symm⟩
  have stable := reached.stable_of_uncounted rfl (by decide) enumerates (by decide) (by decide)
  refine ⟨btc, eth, cmp, btcSome, ethSome, reached, enumerates, stable, fun backed => ?_⟩
  have appeared : Appeared (oneSided btc eth) "ETHUSDT" :=
    ⟨eth, _, ethSome, .inl List.mem_cons_self⟩
  exact absurd (backed.sampled _ appeared) (by decide)

/-- Once the other symbol was compared as well, the verdict is stable and backed. -/
theorem stable_backed_bothSides : ∃ btc eth cmp,
    bboOf? btc = some ("BTCUSDT", 5000000, 5000100) ∧
      bboOf? eth = some ("ETHUSDT", 1000000, 1000100) ∧
      Reaches ⟨1, 1, 0⟩ (bothSides btc eth) [btcPair, ethPair] cmp ∧
      cmp.Enumerates ["BTCUSDT", "ETHUSDT"] ∧ cmp.verdict ["BTCUSDT", "ETHUSDT"] = .stable ∧
      Backed ⟨1, 1, 0⟩ (bothSides btc eth) [btcPair, ethPair] := by
  obtain ⟨btc, btcSome⟩ := exists_bboOf? "BTCUSDT" (by decide) (5000000, 5000100)
  obtain ⟨eth, ethSome⟩ := exists_bboOf? "ETHUSDT" (by decide) (1000000, 1000100)
  obtain ⟨cmp, reached⟩ := reaches_bothSides ⟨1, 1, 0⟩ btcSome ethSome
  have enumerates : cmp.Enumerates ["BTCUSDT", "ETHUSDT"] :=
    ⟨by decide, fun _ => reached.mem_stats_iff.symm⟩
  have uncounted : ∀ c ∈ [btcPair, ethPair], ¬c.Counted 1 := by decide
  have stable := reached.stable_of_uncounted rfl (by decide) enumerates (by decide) uncounted
  have inside {symbol : String} {c : Comparison} (member : c ∈ rounds (bothSides btc eth) symbol) :
      c ∈ [btcPair, ethPair] := by
    rw [← reached.rounds_eq] at member
    exact (List.mem_filter.mp member).1
  refine ⟨btc, eth, cmp, btcSome, ethSome, reached, enumerates, stable,
    (stable_backed_iff reached rfl (by decide) enumerates).mpr ?_ stable⟩
  rintro ⟨-, -, misses⟩
  cases misses with
  | lopsided symbol appeared few =>
    rw [← reached.rounds_eq] at few
    obtain ⟨buf, prices, found, arrived⟩ := appeared
    have known : symbol = "BTCUSDT" ∨ symbol = "ETHUSDT" := by
      have frames : buf = btc ∨ buf = eth := by
        simp only [bothSides, oneSided, List.cons_append, List.nil_append, List.mem_cons,
          Input.activeFrame.injEq, Input.shadowFrame.injEq, reduceCtorEq, List.not_mem_nil,
          or_false, false_or] at arrived
        tauto
      rcases frames with rfl | rfl
      · exact .inl (congrArg Prod.fst (Option.some.inj (found.symm.trans btcSome)))
      · exact .inr (congrArg Prod.fst (Option.some.inj (found.symm.trans ethSome)))
    rcases known with rfl | rfl <;> exact absurd few (by decide)
  | overlooked symbol c member exceeds uncounted =>
    have within : ∀ c ∈ [btcPair, ethPair], ¬c.OutOfTolerance 1 := by
      unfold Comparison.OutOfTolerance Exceeds
      decide
    exact within c (inside member) exceeds
  | wrapped symbol c member counted wraps => exact uncounted c (inside member) counted
  | unnamed first =>
    rw [reached.worstIn_eq_none uncounted] at first
    cases first

end TradingConnectivity.Shadow
