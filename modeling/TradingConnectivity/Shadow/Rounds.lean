import Mathlib.Algebra.BigOperators.Group.Finset.Basic
import Mathlib.Data.List.DropRight
import TradingConnectivity.Shadow.Runs

/-! # What the frames and ticks of a run compare

A tick is a round for a symbol if a frame of it came in since the tick before and both streams have
carried it by then. Which prices meet in which rounds depends on the frames and ticks alone:
`Reaches.rounds_eq` says that the comparisons of a run are those of its rounds.
-/

namespace TradingConnectivity.Shadow

/-- The prices that a frame gives a symbol. -/
def quoteOf (symbol : String) (buf : List UInt8) : Option Bbo :=
  (bboOf? buf).bind fun quote => if quote.1 = symbol then some quote.2 else none

namespace Input

/-- The prices that an input gives a symbol on the active stream. -/
def active? (symbol : String) : Input → Option Bbo
  | activeFrame buf => quoteOf symbol buf
  | shadowFrame _ | tick => none

/-- The prices that an input gives a symbol on the shadow stream. -/
def shadow? (symbol : String) : Input → Option Bbo
  | shadowFrame buf => quoteOf symbol buf
  | activeFrame _ | tick => none

/-- The symbol of a best-bid-offer frame. -/
def symbol? : Input → Option String
  | activeFrame buf | shadowFrame buf => (bboOf? buf).map Prod.fst
  | tick => none

end Input

/-- A frame of the symbol came in since the last tick. -/
def Fresh (past : List Input) (symbol : String) : Prop :=
  ∃ input ∈ past.rtakeWhile (· ≠ .tick), input.symbol? = some symbol

instance (past : List Input) (symbol : String) : Decidable (Fresh past symbol) :=
  inferInstanceAs (Decidable (∃ input ∈ _, _))

/-- The last prices of a symbol on both streams, if both have carried it. -/
def quoted (past : List Input) (symbol : String) : Option Comparison := do
  let active ← (past.filterMap (Input.active? symbol)).getLast?
  let shadow ← (past.filterMap (Input.shadow? symbol)).getLast?
  return ⟨symbol, active, shadow⟩

/-- What a tick after these inputs compares. -/
def roundAt (past : List Input) (symbol : String) : Option Comparison :=
  if Fresh past symbol then quoted past symbol else none

/-- The prices that meet in the rounds of a symbol. -/
def rounds (inputs : List Input) (symbol : String) : List Comparison :=
  (List.range inputs.length).filterMap fun n =>
    if inputs[n]? = some .tick then roundAt (inputs.take n) symbol else none

section Append

variable (past : List Input) (symbol : String)

private theorem rounds_append (input : Input) : rounds (past ++ [input]) symbol =
    rounds past symbol ++ (if input = .tick then roundAt past symbol else none).toList := by
  have earlier : ∀ n ∈ List.range past.length,
      (if (past ++ [input])[n]? = some .tick then roundAt ((past ++ [input]).take n) symbol
        else none) = if past[n]? = some .tick then roundAt (past.take n) symbol else none := by
    intro n member
    have inside := List.mem_range.mp member
    rw [List.getElem?_append_left inside, List.take_append_of_le_length inside.le]
  rw [rounds, rounds, List.length_append, List.length_singleton, List.range_succ,
    List.filterMap_append, List.filterMap_congr earlier]
  simp only [List.filterMap_cons, List.filterMap_nil, List.getElem?_concat_length,
    Option.some.injEq, List.take_left']
  cases (if input = .tick then roundAt past symbol else none) <;> rfl

private theorem fresh_tick : ¬Fresh (past ++ [.tick]) symbol := by
  rintro ⟨input, member, -⟩
  rw [List.rtakeWhile_concat_neg _ _ _ (by simp)] at member
  exact List.not_mem_nil member

private theorem fresh_append {input : Input} (frame : input ≠ .tick) :
    Fresh (past ++ [input]) symbol ↔ Fresh past symbol ∨ input.symbol? = some symbol := by
  rw [Fresh, List.rtakeWhile_concat_pos _ _ _ (by simpa using frame)]
  simp only [List.mem_append, List.mem_singleton, or_and_right, exists_or, exists_eq_left]
  rfl

end Append

/-- The last prices that the frames of a stream give a symbol. -/
def lastOf (frames : List (List UInt8)) (symbol : String) : Option Bbo :=
  (frames.filterMap (quoteOf symbol)).getLast?

/-- The frames of a stream mark a symbol. -/
def Marks (frames : List (List UInt8)) (symbol : String) : Prop :=
  ∃ buf ∈ frames, (bboOf? buf).map Prod.fst = some symbol

private theorem lastOf_cons (buf : List UInt8) (frames : List (List UInt8)) (symbol : String) :
    lastOf (buf :: frames) symbol = (lastOf frames symbol).or (quoteOf symbol buf) := by
  rw [lastOf, lastOf]
  cases found : quoteOf symbol buf with
  | none => rw [List.filterMap_cons_none found, Option.or_none]
  | some prices =>
    rw [List.filterMap_cons_some found, List.getLast?_cons]
    cases (frames.filterMap (quoteOf symbol)).getLast? <;> rfl

private theorem lastOf_append (frames : List (List UInt8)) (buf : List UInt8) (symbol : String) :
    lastOf (frames ++ [buf]) symbol = (quoteOf symbol buf).or (lastOf frames symbol) := by
  rw [lastOf, List.filterMap_append, List.getLast?_append, lastOf]
  cases found : quoteOf symbol buf with
  | none => rw [List.filterMap_cons_none found]; rfl
  | some prices => rw [List.filterMap_cons_some found]; rfl

private theorem marks_append (frames : List (List UInt8)) (buf : List UInt8) (symbol : String) :
    Marks (frames ++ [buf]) symbol ↔
      Marks frames symbol ∨ (bboOf? buf).map Prod.fst = some symbol := by
  simp only [Marks, List.mem_append, List.mem_singleton, or_and_right, exists_or, exists_eq_left]

namespace Comparator

/-- Reading frames replaces the prices of their symbols and marks them. -/
theorem drain_spec (frames : List (List UInt8)) (state : Std.ExtTreeMap String Bbo × Finset String)
    (symbol : String) :
    (drain frames state).1[symbol]? = (lastOf frames symbol).or state.1[symbol]? ∧
      (symbol ∈ (drain frames state).2 ↔ symbol ∈ state.2 ∨ Marks frames symbol) := by
  induction frames generalizing state with
  | nil => exact ⟨rfl, by simp [Marks]⟩
  | cons buf rest ih =>
    rw [lastOf_cons, Option.or_assoc]
    cases found : bboOf? buf with
    | none =>
      have skipped : drain (buf :: rest) state = drain rest state := by
        rw [drain, List.foldl_cons, found]
        rfl
      rw [skipped, quoteOf, found]
      simpa [Marks, found] using ih state
    | some quote =>
      obtain ⟨key, prices⟩ := quote
      obtain ⟨replaced, marked⟩ := ih (state.1.insert key prices, insert key state.2)
      rw [drain_cons found, quoteOf, found, replaced, marked]
      constructor
      · by_cases same : key = symbol
        · subst same
          simp
        · simp [same, Std.ExtTreeMap.getElem?_insert]
      · simp only [Finset.mem_insert, Marks, List.mem_cons, exists_eq_or_imp, found,
          Option.map_some, Option.some.injEq]
        tauto

end Comparator

/-- What a comparator has read and what it has not read yet, against the inputs of its run. -/
structure Follows (inputs : List Input) (cmp : Comparator) (symbol : String) : Prop where
  active : (lastOf cmp.activeRx symbol).or cmp.activeBbo[symbol]? =
    (inputs.filterMap (Input.active? symbol)).getLast?
  shadow : (lastOf cmp.shadowRx symbol).or cmp.shadowBbo[symbol]? =
    (inputs.filterMap (Input.shadow? symbol)).getLast?
  fresh : (symbol ∈ cmp.pending ∨ Marks cmp.activeRx symbol) ∨ Marks cmp.shadowRx symbol ↔
    Fresh inputs symbol

namespace Follows

variable {config : CompareConfig} {inputs : List Input} {cmp : Comparator} {symbol : String}

/-- After reading its streams a comparator has the last prices, and the fresh symbols pending. -/
theorem drained (follows : Follows inputs cmp symbol) :
    cmp.drainActive.drainShadow.comparisonOf? symbol = quoted inputs symbol ∧
      (symbol ∈ cmp.drainActive.drainShadow.pending ↔ Fresh inputs symbol) := by
  obtain ⟨active, marked⟩ := Comparator.drain_spec cmp.activeRx (cmp.activeBbo, cmp.pending) symbol
  obtain ⟨shadow, pending⟩ := Comparator.drain_spec cmp.shadowRx
    (cmp.shadowBbo, cmp.drainActive.pending) symbol
  constructor
  · have first : cmp.drainActive.drainShadow.activeBbo[symbol]? = _ := active.trans follows.active
    have second : cmp.drainActive.drainShadow.shadowBbo[symbol]? = _ :=
      shadow.trans follows.shadow
    rw [Comparator.comparisonOf?, first, second, quoted]
  · rw [← follows.fresh]
    exact pending.trans (or_congr_left marked)

theorem activeFrame (follows : Follows inputs cmp symbol) (buf : List UInt8) :
    Follows (inputs ++ [.activeFrame buf]) { cmp with activeRx := cmp.activeRx ++ [buf] }
      symbol where
  active := by
    rw [lastOf_append, Option.or_assoc, follows.active, List.filterMap_append,
      List.getLast?_append]
    cases found : quoteOf symbol buf <;> simp [Input.active?, found]
  shadow := by
    rw [List.filterMap_append]
    exact follows.shadow.trans (by rw [List.filterMap_cons_none rfl]; simp)
  fresh := by
    rw [fresh_append _ _ (by simp), ← follows.fresh, marks_append]
    change _ ↔ _ ∨ (bboOf? buf).map Prod.fst = some symbol
    tauto

theorem shadowFrame (follows : Follows inputs cmp symbol) (buf : List UInt8) :
    Follows (inputs ++ [.shadowFrame buf]) { cmp with shadowRx := cmp.shadowRx ++ [buf] }
      symbol where
  active := by
    rw [List.filterMap_append]
    exact follows.active.trans (by rw [List.filterMap_cons_none rfl]; simp)
  shadow := by
    rw [lastOf_append, Option.or_assoc, follows.shadow, List.filterMap_append,
      List.getLast?_append]
    cases found : quoteOf symbol buf <;> simp [Input.shadow?, found]
  fresh := by
    rw [fresh_append _ _ (by simp), ← follows.fresh, marks_append]
    change _ ↔ _ ∨ (bboOf? buf).map Prod.fst = some symbol
    tauto

theorem tick (follows : Follows inputs cmp symbol) {order : List String} {cmp' : Comparator}
    (done : cmp.tick order = some cmp') : Follows (inputs ++ [.tick]) cmp' symbol := by
  rw [Comparator.tick, Comparator.comparePending_eq] at done
  obtain ⟨stats, -, rfl⟩ := Option.map_eq_some_iff.mp done
  obtain ⟨active, -⟩ := Comparator.drain_spec cmp.activeRx (cmp.activeBbo, cmp.pending) symbol
  obtain ⟨shadow, -⟩ := Comparator.drain_spec cmp.shadowRx
    (cmp.shadowBbo, cmp.drainActive.pending) symbol
  refine ⟨?_, ?_, ?_⟩
  · rw [List.filterMap_append, List.filterMap_cons_none rfl, List.filterMap_nil, List.append_nil]
    exact active.trans follows.active
  · rw [List.filterMap_append, List.filterMap_cons_none rfl, List.filterMap_nil, List.append_nil]
    exact shadow.trans follows.shadow
  · refine iff_of_false ?_ (fresh_tick inputs symbol)
    rintro ((pending | ⟨buf, member, -⟩) | ⟨buf, member, -⟩)
    · exact Finset.notMem_empty _ pending
    · exact List.not_mem_nil member
    · exact List.not_mem_nil member

end Follows

section Run

variable {config : CompareConfig} {inputs : List Input} {made : List Comparison}
  {cmp : Comparator}

theorem Reaches.follows (reached : Reaches config inputs made cmp) (symbol : String) :
    Follows inputs cmp symbol := by
  induction reached with
  | new =>
    exact ⟨by simp [Comparator.new, lastOf], by simp [Comparator.new, lastOf],
      by simp [Comparator.new, Marks, Fresh]⟩
  | activeFrame before buf ih => exact ih.activeFrame buf
  | shadowFrame before buf ih => exact ih.shadowFrame buf
  | tick before once pending done ih => exact ih.tick done

/-- The comparisons of a symbol are those of its rounds. -/
theorem Reaches.rounds_eq (reached : Reaches config inputs made cmp) (symbol : String) :
    made.filter (·.symbol = symbol) = rounds inputs symbol := by
  induction reached with
  | new => rfl
  | activeFrame before buf ih => rw [rounds_append, ih, if_neg (by simp)]; simp
  | shadowFrame before buf ih => rw [rounds_append, ih, if_neg (by simp)]; simp
  | @tick inputs made cmp cmp' order before once pending done ih =>
    obtain ⟨known, fresh⟩ := (before.follows symbol).drained
    rw [rounds_append, if_pos rfl, List.filter_append, ih, roundAt, ← known]
    congr 1
    by_cases due : symbol ∈ order
    · rw [if_pos (fresh.mp ((pending symbol).mp due))]
      cases compared : cmp.drainActive.drainShadow.comparisonOf? symbol with
      | none =>
        refine List.filter_eq_nil_iff.mpr fun c member => ?_
        obtain ⟨key, -, made⟩ := List.mem_filterMap.mp member
        obtain ⟨rfl, -⟩ := Comparator.comparisonOf?_eq_some_iff.mp made
        rw [decide_eq_true_eq]
        rintro rfl
        exact absurd (made.symm.trans compared) (by simp)
      | some c => exact Comparator.comparisons_filter compared once due
    · rw [if_neg fun now => due ((pending symbol).mpr (fresh.mpr now))]
      refine List.filter_eq_nil_iff.mpr fun c member => ?_
      obtain ⟨key, inside, made⟩ := List.mem_filterMap.mp member
      obtain ⟨rfl, -⟩ := Comparator.comparisonOf?_eq_some_iff.mp made
      rw [decide_eq_true_eq]
      rintro rfl
      exact due inside

theorem Reaches.mem_made_iff (reached : Reaches config inputs made cmp) {c : Comparison} :
    c ∈ made ↔ c ∈ rounds inputs c.symbol := by
  rw [← reached.rounds_eq, List.mem_filter, decide_eq_true_eq, and_iff_left rfl]

end Run

/-- The symbols of the frames of both streams. -/
def carried (inputs : List Input) : Finset String := (inputs.filterMap Input.symbol?).toFinset

/-- The rounds of all symbols. -/
def totalRounds (inputs : List Input) : ℕ :=
  ∑ symbol ∈ carried inputs, (rounds inputs symbol).length

private theorem symbol_of_mem_filterMap {past : List Input} {symbol : String} {prices : Bbo}
    (last : (past.filterMap (Input.active? symbol)).getLast? = some prices) :
    symbol ∈ carried past := by
  obtain ⟨input, member, gives⟩ := List.mem_filterMap.mp (List.mem_of_getLast? last)
  rw [carried, List.mem_toFinset, List.mem_filterMap]
  refine ⟨input, member, ?_⟩
  cases input with
  | activeFrame buf =>
    obtain ⟨quote, found, own⟩ := Option.bind_eq_some_iff.mp gives
    split at own
    · next same => simp [Input.symbol?, found, same]
    · cases own
  | shadowFrame buf => cases gives
  | tick => cases gives

/-- Only symbols of frames have rounds. -/
private theorem mem_carried_of_rounds {inputs : List Input} {symbol : String} {c : Comparison}
    (member : c ∈ rounds inputs symbol) : symbol ∈ carried inputs := by
  obtain ⟨n, -, asked⟩ := List.mem_filterMap.mp member
  split at asked
  · rw [roundAt] at asked
    split at asked
    · obtain ⟨active, last, -⟩ := Option.bind_eq_some_iff.mp asked
      have before := symbol_of_mem_filterMap last
      simp only [carried, List.mem_toFinset, List.mem_filterMap] at before ⊢
      obtain ⟨input, inside, own⟩ := before
      exact ⟨input, List.mem_of_mem_take inside, own⟩
    · cases asked
  · cases asked

/-- The comparisons of a run are as many as its rounds. -/
theorem Reaches.length_made {config : CompareConfig} {inputs : List Input}
    {made : List Comparison} {cmp : Comparator} (reached : Reaches config inputs made cmp) :
    made.length = totalRounds inputs := by
  have inside : ∀ symbol ∈ (made.map Comparison.symbol : Multiset String),
      symbol ∈ carried inputs := by
    intro symbol member
    obtain ⟨c, compared, rfl⟩ := List.mem_map.mp (Multiset.mem_coe.mp member)
    exact mem_carried_of_rounds (reached.mem_made_iff.mp compared)
  have total := Multiset.sum_count_eq_card inside
  rw [Multiset.coe_card, List.length_map] at total
  rw [← total, totalRounds]
  refine Finset.sum_congr rfl fun symbol _ => ?_
  rw [← reached.rounds_eq, Multiset.coe_count, List.count, List.countP_map,
    ← List.countP_eq_length_filter]
  rfl

end TradingConnectivity.Shadow
