import Mathlib.Order.SuccPred.Basic
import Mathlib.Data.List.Basic

/-! # Consecutive ranges

A list of items, each carrying a range from `first` to `final`, is consecutive after `start` when
every range begins one past the end of its predecessor and the first begins one past `start`. Such
ranges leave no hole (`Consecutive.covers`). If no range is empty their ends increase, so a cutoff
splits the list in two.
-/

namespace TradingConnectivity

section reach

variable {α δ : Type*} (final : δ → α)

/-- The end of the last range, or `start` when there is none. -/
def reach (start : α) (ds : List δ) : α := ds.foldl (fun _ d => final d) start

@[simp] theorem reach_nil (start : α) : reach final start [] = start := rfl

@[simp] theorem reach_cons (start : α) (d : δ) (rest : List δ) :
    reach final start (d :: rest) = reach final (final d) rest := rfl

@[simp] theorem reach_append_singleton (start : α) (ds : List δ) (d : δ) :
    reach final start (ds ++ [d]) = final d := by
  simp only [reach, List.foldl_append, List.foldl_cons, List.foldl_nil]

/-- Where a list that is not empty reaches does not depend on the start. -/
theorem reach_eq_of_ne_nil {ds : List δ} (nonempty : ds ≠ []) (start other : α) :
    reach final start ds = reach final other ds := by
  cases ds with
  | nil => exact absurd rfl nonempty
  | cons d rest => rfl

/-- The reach may be computed before or after changing the numbers. -/
theorem reach_comp {β : Type*} (change : α → β) (start : α) (ds : List δ) :
    reach (change ∘ final) (change start) ds = change (reach final start ds) := by
  induction ds generalizing start with
  | nil => rfl
  | cons d rest ih => exact ih (final d)

variable {final} in
theorem reach_le [LE α] {start bound : α} {ds : List δ} (low : start ≤ bound)
    (below : ∀ d ∈ ds, final d ≤ bound) : reach final start ds ≤ bound := by
  induction ds generalizing start with
  | nil => exact low
  | cons d rest ih =>
    exact ih (below d List.mem_cons_self) fun e member => below e (List.mem_cons_of_mem _ member)

variable {final} in
theorem lt_reach [LT α] {start bound : α} {ds : List δ} (low : bound < start)
    (above : ∀ d ∈ ds, bound < final d) : bound < reach final start ds := by
  induction ds generalizing start with
  | nil => exact low
  | cons d rest ih =>
    exact ih (above d List.mem_cons_self) fun e member => above e (List.mem_cons_of_mem _ member)

end reach

section consecutive

variable {α δ : Type*} [LinearOrder α] [SuccOrder α] (first final : δ → α)

/-- Every range begins one past the end of its predecessor, the first one past `start`. -/
def Consecutive : α → List δ → Prop
  | _, [] => True
  | start, d :: rest => first d = Order.succ start ∧ Consecutive (final d) rest

namespace Consecutive

variable {first final}

theorem append_iff {start : α} {before after : List δ} :
    Consecutive first final start (before ++ after) ↔
      Consecutive first final start before ∧
        Consecutive first final (reach final start before) after := by
  induction before generalizing start with
  | nil => simp only [List.nil_append, Consecutive, true_and, reach_nil]
  | cons d rest ih => simp only [List.cons_append, Consecutive, ih, reach_cons, and_assoc]

/-- A list grows by the range that begins one past its reach. -/
theorem concat {start : α} {ds : List δ} {d : δ} (consecutive : Consecutive first final start ds)
    (follows : first d = Order.succ (reach final start ds)) :
    Consecutive first final start (ds ++ [d]) :=
  append_iff.mpr ⟨consecutive, follows, trivial⟩

/-- Consecutive ranges leave no hole after `start`. -/
theorem covers {start id : α} {ds : List δ} (consecutive : Consecutive first final start ds)
    (after : start < id) (upto : id ≤ reach final start ds) :
    ∃ d ∈ ds, first d ≤ id ∧ id ≤ final d := by
  induction ds generalizing start with
  | nil => exact absurd after (not_lt_of_ge upto)
  | cons d rest ih =>
    obtain ⟨begins, tail⟩ := consecutive
    rcases le_or_gt id (final d) with inside | beyond
    · refine ⟨d, List.mem_cons_self, ?_, inside⟩
      rw [begins]
      exact Order.succ_le_of_lt after
    · obtain ⟨found, member, bounds⟩ := ih tail beyond upto
      exact ⟨found, List.mem_cons_of_mem _ member, bounds⟩

variable [NoMaxOrder α]

/-- Every end lies past `start`, if no range is empty. -/
theorem start_lt {start : α} {ds : List δ} (consecutive : Consecutive first final start ds)
    (proper : ∀ d ∈ ds, first d ≤ final d) : ∀ d ∈ ds, start < final d := by
  induction ds generalizing start with
  | nil => exact fun d member => absurd member List.not_mem_nil
  | cons d rest ih =>
    obtain ⟨begins, tail⟩ := consecutive
    have head : start < final d :=
      lt_of_lt_of_le (Order.lt_succ start) (begins ▸ proper d List.mem_cons_self)
    intro other member
    rcases List.mem_cons.mp member with rfl | later
    · exact head
    · have properRest := fun e inside => proper e (List.mem_cons_of_mem _ inside)
      exact head.trans (ih tail properRest other later)

/-- The ends increase, if no range is empty. -/
theorem increasing {start : α} {ds : List δ} (consecutive : Consecutive first final start ds)
    (proper : ∀ d ∈ ds, first d ≤ final d) : ds.Pairwise fun d later => final d < final later := by
  induction ds generalizing start with
  | nil => exact List.Pairwise.nil
  | cons d rest ih =>
    have inner : ∀ e ∈ rest, first e ≤ final e := fun e inside =>
      proper e (List.mem_cons_of_mem _ inside)
    exact List.pairwise_cons.mpr ⟨start_lt consecutive.2 inner, ih consecutive.2 inner⟩

end Consecutive

end consecutive

/-- A cutoff splits a list with increasing ends into the ends up to it and those past it. -/
theorem exists_cut {α δ : Type*} [LinearOrder α] {final : δ → α} (cut : α) {ds : List δ}
    (increasing : ds.Pairwise fun d later => final d < final later) :
    ∃ before after, ds = before ++ after ∧ (∀ d ∈ before, final d ≤ cut) ∧
      ∀ d ∈ after, cut < final d := by
  induction ds with
  | nil =>
    refine ⟨[], [], rfl, ?_, ?_⟩ <;> exact fun d member => absurd member List.not_mem_nil
  | cons d rest ih =>
    obtain ⟨above, inner⟩ := List.pairwise_cons.mp increasing
    rcases le_or_gt (final d) cut with early | late
    · obtain ⟨before, after, rfl, low, high⟩ := ih inner
      refine ⟨d :: before, after, rfl, ?_, high⟩
      intro e member
      rcases List.mem_cons.mp member with rfl | later
      · exact early
      · exact low e later
    · refine ⟨[], d :: rest, rfl, fun e member => absurd member List.not_mem_nil, ?_⟩
      intro e member
      rcases List.mem_cons.mp member with rfl | later
      · exact late
      · exact late.trans (above e later)

end TradingConnectivity
