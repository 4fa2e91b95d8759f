import TradingConnectivity.MarketData.OrderBook

/-! # What the checksum covers

The checksum reads the update id, then the bids, then the asks, and nothing marks where the bids
end. Its input therefore determines the update id and the levels in one row, but not the side of a
level next to the border: the lowest bid of one book can be the lowest ask of another.
-/

namespace TradingConnectivity.MarketData

open Codec

namespace OrderBook

/-- The books an instance can hold. -/
inductive Reachable : OrderBook → Prop
  | new : Reachable new
  | markStale {book : OrderBook} (reason : BookStaleReason) (reached : Reachable book) :
      Reachable (book.markStale reason)
  | markRecovered {book : OrderBook} (reached : Reachable book) : Reachable book.markRecovered
  | applySnapshot {book : OrderBook} (snap : BookSnapshot) (reached : Reachable book) :
      Reachable (book.applySnapshot snap)
  | applyDelta {book : OrderBook} (delta : BookDelta) (reached : Reachable book) :
      Reachable (book.applyDelta delta)

/-- The levels in the order in which the checksum reads them. -/
def levelRow (book : OrderBook) : List (Int64 × Int64) :=
  book.bids.toList.reverse ++ book.asks.toList

/-- The other book has the lowest bid of this one as its lowest ask, and is otherwise the same. -/
def LowestBidAsAsk (book other : OrderBook) : Prop :=
  book.lastUpdateId = other.lastUpdateId ∧
    ∃ level, book.bids.toList = level :: other.bids.toList ∧
      other.asks.toList = level :: book.asks.toList

@[simp] theorem length_levelBytes (level : Int64 × Int64) : (levelBytes level).length = 16 := by
  rw [levelBytes, List.length_append, length_int64Bytes, length_int64Bytes]

private theorem levelBytes_injective : Function.Injective levelBytes := by
  rintro ⟨price, qty⟩ ⟨price', qty'⟩ same
  obtain ⟨first, second⟩ := List.append_inj same (by rw [length_int64Bytes, length_int64Bytes])
  exact Prod.ext (int64Bytes_injective first) (int64Bytes_injective second)

private theorem checksumInput_eq (book : OrderBook) :
    book.checksumInput = uint64Bytes book.lastUpdateId ++ book.levelRow.flatMap levelBytes := by
  rw [checksumInput, levelRow, List.flatMap_append, List.append_assoc]

/-- Equal inputs are equal ids and equal rows of levels. -/
private theorem checksumInput_inj {book other : OrderBook} :
    book.checksumInput = other.checksumInput ↔
      book.lastUpdateId = other.lastUpdateId ∧ book.levelRow = other.levelRow := by
  rw [checksumInput_eq, checksumInput_eq]
  constructor
  · intro same
    obtain ⟨id, row⟩ := List.append_inj same (by rw [length_uint64Bytes, length_uint64Bytes])
    exact ⟨uint64Bytes_injective id,
      flatMap_injective (by omega) length_levelBytes levelBytes_injective row⟩
  · rintro ⟨id, row⟩
    rw [id, row]

/-- A descending row that is also ascending has at most one level. -/
private theorem eq_of_row {row : List (Int64 × Int64)}
    (ascending : row.Pairwise fun a b => compare a.1 b.1 = .lt)
    (descending : row.Pairwise fun a b => compare b.1 a.1 = .lt) :
    row = [] ∨ ∃ level, row = [level] := by
  match row with
  | [] => exact .inl rfl
  | [level] => exact .inr ⟨level, rfl⟩
  | first :: second :: rest =>
    have up := List.rel_of_pairwise_cons ascending List.mem_cons_self
    have down := List.rel_of_pairwise_cons descending List.mem_cons_self
    exact absurd (Std.compare_eq_lt.mp up) (Int64.lt_asymm (Std.compare_eq_lt.mp down))

/-- When one row of bids is longer, it ends in the level where the other row of asks begins. -/
private theorem border {book other : OrderBook} {moved : List (Int64 × Int64)}
    (bids : book.bids.toList.reverse = other.bids.toList.reverse ++ moved)
    (asks : other.asks.toList = moved ++ book.asks.toList) :
    (book.bids = other.bids ∧ book.asks = other.asks) ∨
      ∃ level, book.bids.toList = level :: other.bids.toList ∧
        other.asks.toList = level :: book.asks.toList := by
  have reversed : book.bids.toList = moved.reverse ++ other.bids.toList := by
    rw [← List.reverse_inj, bids, List.reverse_append, List.reverse_reverse]
  have ascending := (asks ▸ other.asks.ordered_keys_toList).sublist (List.sublist_append_left _ _)
  have descending := (reversed ▸ book.bids.ordered_keys_toList).sublist
    (List.sublist_append_left _ _)
  rw [List.pairwise_reverse] at descending
  rcases eq_of_row ascending descending with rfl | ⟨level, rfl⟩
  · refine .inl ⟨?_, ?_⟩
    · exact Std.ExtTreeMap.toList_inj.mp reversed
    · exact (Std.ExtTreeMap.toList_inj.mp asks).symm
  · exact .inr ⟨level, reversed, asks⟩

/-- Equal rows are equal sides, up to one level on the border. -/
theorem levelRow_eq_iff {book other : OrderBook} (id : book.lastUpdateId = other.lastUpdateId) :
    book.levelRow = other.levelRow ↔
      book.SameMarket other ∨ book.LowestBidAsAsk other ∨ other.LowestBidAsAsk book := by
  constructor
  · intro same
    rcases List.append_eq_append_iff.mp same with ⟨moved, bids, asks⟩ | ⟨moved, bids, asks⟩
    · rcases border bids asks with ⟨sameBids, sameAsks⟩ | level
      · exact .inl ⟨sameBids.symm, sameAsks.symm, id⟩
      · exact .inr (.inr ⟨id.symm, level⟩)
    · rcases border bids asks with ⟨sameBids, sameAsks⟩ | level
      · exact .inl ⟨sameBids, sameAsks, id⟩
      · exact .inr (.inl ⟨id, level⟩)
  · rintro (same | ⟨-, level, bids, asks⟩ | ⟨-, level, bids, asks⟩)
    · rw [levelRow, levelRow, same.bids, same.asks]
    · simp only [levelRow, bids, asks, List.reverse_cons, List.append_assoc, List.singleton_append]
    · simp only [levelRow, bids, asks, List.reverse_cons, List.append_assoc, List.singleton_append]

/-- A book whose lowest bid moved to the asks is another book. -/
theorem LowestBidAsAsk.ne {book other : OrderBook} (moved : book.LowestBidAsAsk other) :
    book.bids ≠ other.bids := by
  obtain ⟨-, level, bids, -⟩ := moved
  intro same
  rw [same] at bids
  exact absurd bids.symm (List.cons_ne_self _ _)

/-- The checksum input identifies the book unless the lowest bid of one book is the lowest ask of
the other and the two are otherwise the same. -/
theorem checksumInput_identifies_iff (book other : OrderBook) :
    (book.checksumInput = other.checksumInput → book.SameMarket other) ↔
      ¬book.LowestBidAsAsk other ∧ ¬other.LowestBidAsAsk book := by
  rw [checksumInput_inj]
  constructor
  · intro identifies
    constructor
    · intro moved
      have same := identifies ⟨moved.1, (levelRow_eq_iff moved.1).mpr (.inr (.inl moved))⟩
      exact moved.ne same.bids
    · intro moved
      have id := moved.1.symm
      have same := identifies ⟨id, (levelRow_eq_iff id).mpr (.inr (.inr moved))⟩
      exact moved.ne same.bids.symm
  · rintro ⟨here, there⟩ ⟨id, row⟩
    rcases (levelRow_eq_iff id).mp row with same | moved | moved
    · exact same
    · exact absurd moved here
    · exact absurd moved there

/-- One level of quantity 5 at price 100, as a bid and as an ask. -/
theorem checksumInput_not_injective :
    ¬∀ book other : OrderBook, book.Reachable → other.Reachable →
      book.checksumInput = other.checksumInput → book.SameMarket other := by
  intro identifies
  have same := identifies (new.applySnapshot ⟨7, [⟨100, 5⟩], []⟩)
    (new.applySnapshot ⟨7, [], [⟨100, 5⟩]⟩) (.applySnapshot _ .new) (.applySnapshot _ .new) (by rfl)
  have read := congrArg (fun side : BookSide => side[(100 : Int64)]?) same.bids
  exact absurd read (by decide)

end OrderBook

end TradingConnectivity.MarketData
