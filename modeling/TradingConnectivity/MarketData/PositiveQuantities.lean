import TradingConnectivity.MarketData.LastWrite

/-! # Positive quantities

A snapshot inserts only positive quantities, a delta inserts every quantity that is not zero. So a
book whose levels are all positive keeps them so under a snapshot, and under a delta exactly when
the delta leaves no price at a negative quantity.
-/

namespace TradingConnectivity.MarketData

/-- Every level that the book yields has a quantity greater than zero. -/
structure OrderBook.Positive (book : OrderBook) : Prop where
  bids : ∀ lvl ∈ book.bidLevels, 0 < lvl.qty
  asks : ∀ lvl ∈ book.askLevels, 0 < lvl.qty
  bestBid : ∀ lvl ∈ book.bestBid, 0 < lvl.qty
  bestAsk : ∀ lvl ∈ book.bestAsk, 0 < lvl.qty

/-- The last entry of each side for each price is not negative. -/
def BookDelta.EndsNonnegative (delta : BookDelta) : Prop :=
  ∀ side, ∀ lvl ∈ delta.levels side, lastEntry (delta.levels side) lvl.price = some lvl →
    0 ≤ lvl.qty

def BookUpdate.EndsNonnegative : BookUpdate → Prop
  | .snapshot _ => True
  | .delta d => d.EndsNonnegative

private theorem lastEntry_eq_some {entries : List PriceLevel} {price : Int64} {lvl : PriceLevel}
    (last : lastEntry entries price = some lvl) : lvl ∈ entries ∧ lvl.price = price := by
  obtain ⟨mem, same⟩ := List.mem_filter.mp (List.mem_of_getLast? last)
  exact ⟨mem, of_decide_eq_true same⟩

private theorem PriceLevel.left_eq_some_iff {lvl : PriceLevel} {qty : Int64} :
    lvl.left = some qty ↔ lvl.qty = qty ∧ qty ≠ 0 := by
  rw [left]
  split <;> grind

namespace OrderBook

private theorem positive_iff {book : OrderBook} : book.Positive ↔
    ∀ (side : Side) (price qty : Int64), (book.side side)[price]? = some qty → 0 < qty := by
  constructor
  · intro positive side price qty held
    cases side with
    | bid => exact positive.bids ⟨price, qty⟩ (mem_bidLevels.mpr held)
    | ask => exact positive.asks ⟨price, qty⟩ (mem_askLevels.mpr held)
  · intro positive
    have bids : ∀ lvl ∈ book.bidLevels, 0 < lvl.qty :=
      fun lvl mem => positive .bid _ _ (mem_bidLevels.mp mem)
    have asks : ∀ lvl ∈ book.askLevels, 0 < lvl.qty :=
      fun lvl mem => positive .ask _ _ (mem_askLevels.mp mem)
    exact ⟨bids, asks, fun lvl best => bids lvl (bestBid_eq_some_iff.mp best).1,
      fun lvl best => asks lvl (bestAsk_eq_some_iff.mp best).1⟩

private theorem positive_new : new.Positive := by
  rw [positive_iff]
  intro side price qty held
  have empty : (new.side side)[price]? = none := by
    cases side <;> exact Std.ExtTreeMap.getElem?_empty
  exact absurd (empty.symm.trans held) (by simp)

/-- Whatever a snapshot lists, it leaves only positive quantities. -/
private theorem positive_applySnapshot (book : OrderBook) (snap : BookSnapshot) :
    (book.applySnapshot snap).Positive := by
  rw [positive_iff]
  intro side price qty held
  rw [side_applySnapshot, getElem?_applyLevels_empty, lastQty, Option.bind_eq_some_iff] at held
  obtain ⟨lvl, last, left⟩ := held
  obtain ⟨rfl, -⟩ := PriceLevel.left_eq_some_iff.mp left
  exact of_decide_eq_true (List.mem_filter.mp (lastEntry_eq_some last).1).2

private theorem positive_applyDelta_iff {book : OrderBook} (positive : book.Positive)
    (delta : BookDelta) :
    (book.applyDelta delta).Positive ↔ delta.EndsNonnegative := by
  rw [positive_iff] at positive
  rw [positive_iff]
  constructor
  · intro after side lvl _ last
    by_cases zero : lvl.qty = 0
    · exact Int64.le_of_eq zero.symm
    · refine Int64.le_of_lt (after side lvl.price lvl.qty ?_)
      rw [side_applyDelta, getElem?_applyLevels_eq, last]
      exact PriceLevel.left_eq_some_iff.mpr ⟨rfl, zero⟩
  · intro nonnegative side price qty held
    rw [side_applyDelta, getElem?_applyLevels_eq] at held
    cases last : lastEntry (delta.levels side) price with
    | none =>
      rw [last] at held
      exact positive side price qty held
    | some lvl =>
      rw [last] at held
      obtain ⟨rfl, nonzero⟩ := PriceLevel.left_eq_some_iff.mp held
      obtain ⟨mem, rfl⟩ := lastEntry_eq_some last
      exact Int64.lt_of_le_of_ne (nonnegative side lvl mem last) nonzero.symm

private theorem positive_apply_iff {book : OrderBook} (positive : book.Positive)
    (update : BookUpdate) :
    (book.apply update).Positive ↔ update.EndsNonnegative := by
  cases update with
  | snapshot snap => exact iff_of_true (book.positive_applySnapshot snap) trivial
  | delta d => exact positive_applyDelta_iff positive d

/-- All books of a run have only positive levels exactly when no delta of the run leaves a price at
a negative quantity. -/
theorem run_positive_iff (updates : List BookUpdate) :
    (∀ earlier later, updates = earlier ++ later → (run earlier).Positive) ↔
      ∀ update ∈ updates, update.EndsNonnegative := by
  have step : ∀ (book : OrderBook) (update : BookUpdate), True → book.Positive → True →
      ((machine.next book update).Positive ↔ update.EndsNonnegative) :=
    fun _ update _ positive _ => positive_apply_iff positive update
  have tame : (∀ earlier later, updates = earlier ++ later → (run earlier).Positive) ↔
      ∀ event ∈ machine.history new updates, event.input.EndsNonnegative :=
    machine.safe_iff (fun _ _ _ _ => trivial) step trivial positive_new fun _ _ => trivial
  rw [tame, ← List.forall_mem_map, machine.history_inputs]

/-- A delta inserts a negative quantity into an empty book. -/
theorem negative_inserted : ¬∀ updates : List BookUpdate, (run updates).Positive := by
  intro positive
  have negative := (positive_applyDelta_iff positive_new ⟨1, 1, 0, [⟨100, -5⟩], []⟩).mp
    (positive [.delta ⟨1, 1, 0, [⟨100, -5⟩], []⟩]) .bid ⟨100, -5⟩ List.mem_cons_self rfl
  exact absurd negative (by decide)

end OrderBook

end TradingConnectivity.MarketData
