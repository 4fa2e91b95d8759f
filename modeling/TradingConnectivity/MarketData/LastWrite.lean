import TradingConnectivity.Machine.History
import TradingConnectivity.MarketData.OrderBook

/-! # What a book shows

The levels of a book are listed best first. After any sequence of snapshots and deltas a price has
the quantity of its last entry since the latest snapshot; of the snapshot only the entries with a
positive quantity count.
-/

namespace TradingConnectivity.MarketData

namespace OrderBook

/-! ## Iteration -/

def toLevel (entry : Int64 × Int64) : PriceLevel := ⟨entry.1, entry.2⟩

/-- The bids from the highest price downwards. -/
def bidLevels (book : OrderBook) : List PriceLevel := book.bids.toList.reverse.map toLevel

/-- The asks from the lowest price upwards. -/
def askLevels (book : OrderBook) : List PriceLevel := book.asks.toList.map toLevel

def bestBid (book : OrderBook) : Option PriceLevel := book.bids.toList.getLast?.map toLevel

def bestAsk (book : OrderBook) : Option PriceLevel := book.asks.toList.head?.map toLevel

private theorem bestBid_eq_head? (book : OrderBook) : book.bestBid = book.bidLevels.head? := by
  rw [bestBid, bidLevels, List.head?_map, List.head?_reverse]

private theorem bestAsk_eq_head? (book : OrderBook) : book.bestAsk = book.askLevels.head? := by
  rw [bestAsk, askLevels, List.head?_map]

private theorem mem_map_toLevel {side : BookSide} {lvl : PriceLevel} :
    lvl ∈ side.toList.map toLevel ↔ side[lvl.price]? = some lvl.qty := by
  rw [← Std.ExtTreeMap.mem_toList_iff_getElem?_eq_some, List.mem_map]
  constructor
  · rintro ⟨entry, mem, rfl⟩
    exact mem
  · intro mem
    exact ⟨_, mem, rfl⟩

theorem mem_bidLevels {book : OrderBook} {lvl : PriceLevel} :
    lvl ∈ book.bidLevels ↔ book.bids[lvl.price]? = some lvl.qty := by
  rw [bidLevels, ← mem_map_toLevel, List.map_reverse, List.mem_reverse]

theorem mem_askLevels {book : OrderBook} {lvl : PriceLevel} :
    lvl ∈ book.askLevels ↔ book.asks[lvl.price]? = some lvl.qty := mem_map_toLevel

private theorem askLevels_ascending (book : OrderBook) :
    book.askLevels.Pairwise fun better worse => better.price < worse.price :=
  List.Pairwise.map toLevel (fun _ _ => Std.compare_eq_lt.mp) Std.ExtTreeMap.ordered_keys_toList

private theorem bidLevels_descending (book : OrderBook) :
    book.bidLevels.Pairwise fun better worse => worse.price < better.price :=
  List.Pairwise.map toLevel (fun _ _ => Std.compare_eq_lt.mp)
    (List.pairwise_reverse.mpr Std.ExtTreeMap.ordered_keys_toList)

/-- The head of a list that is sorted from best to worst is the level that none is better than. -/
private theorem head?_eq_some_iff {better : PriceLevel → PriceLevel → Prop}
    (asymm : ∀ a b, better a b → ¬better b a) {levels : List PriceLevel}
    (sorted : levels.Pairwise better) {lvl : PriceLevel} :
    levels.head? = some lvl ↔ lvl ∈ levels ∧ ∀ other ∈ levels, ¬better other lvl := by
  cases levels with
  | nil => simp
  | cons best rest =>
    obtain ⟨first, -⟩ := List.pairwise_cons.mp sorted
    constructor
    · intro head
      obtain rfl := Option.some.inj head
      refine ⟨List.mem_cons_self, fun other mem => ?_⟩
      rcases List.mem_cons.mp mem with rfl | worse
      · exact fun same => asymm _ _ same same
      · exact asymm _ _ (first other worse)
    · rintro ⟨mem, unbeaten⟩
      rcases List.mem_cons.mp mem with rfl | worse
      · rfl
      · exact absurd (first lvl worse) (unbeaten best List.mem_cons_self)

theorem bestBid_eq_some_iff {book : OrderBook} {lvl : PriceLevel} : book.bestBid = some lvl ↔
    lvl ∈ book.bidLevels ∧ ∀ other ∈ book.bidLevels, other.price ≤ lvl.price := by
  rw [bestBid_eq_head?, head?_eq_some_iff (fun _ _ => Int64.lt_asymm) book.bidLevels_descending]
  simp only [Int64.not_lt]

theorem bestAsk_eq_some_iff {book : OrderBook} {lvl : PriceLevel} : book.bestAsk = some lvl ↔
    lvl ∈ book.askLevels ∧ ∀ other ∈ book.askLevels, lvl.price ≤ other.price := by
  rw [bestAsk_eq_head?, head?_eq_some_iff (fun _ _ => Int64.lt_asymm) book.askLevels_ascending]
  simp only [Int64.not_lt]

end OrderBook

/-! ## Histories -/

inductive Side
  | bid
  | ask
deriving DecidableEq, Repr

inductive BookUpdate
  | snapshot (snap : BookSnapshot)
  | delta (delta : BookDelta)
deriving DecidableEq, Repr

def BookSnapshot.levels (snap : BookSnapshot) : Side → List PriceLevel
  | .bid => snap.bids
  | .ask => snap.asks

def BookDelta.levels (delta : BookDelta) : Side → List PriceLevel
  | .bid => delta.bids
  | .ask => delta.asks

def BookUpdate.levels : BookUpdate → Side → List PriceLevel
  | .snapshot snap => snap.levels
  | .delta d => d.levels

namespace OrderBook

def side (book : OrderBook) : Side → BookSide
  | .bid => book.bids
  | .ask => book.asks

def apply (book : OrderBook) : BookUpdate → OrderBook
  | .snapshot snap => book.applySnapshot snap
  | .delta delta => book.applyDelta delta

def machine : Machine OrderBook BookUpdate Unit where
  step book update := (book.apply update, ())

/-- The book after a sequence of updates. -/
def run (updates : List BookUpdate) : OrderBook := machine.final new updates

end OrderBook

/-- The entries since the latest snapshot, in the order of their application; of the snapshot only
those that count. -/
def entriesSince (counts : PriceLevel → Bool) (side : Side) (updates : List BookUpdate) :
    List PriceLevel :=
  updates.foldl (fun entries update =>
    match update with
    | .snapshot snap => (snap.levels side).filter counts
    | .delta delta => entries ++ delta.levels side) []

def lastEntry (entries : List PriceLevel) (price : Int64) : Option PriceLevel :=
  (entries.filter (·.price = price)).getLast?

/-- The quantity that an entry leaves at its price; zero leaves none. -/
def PriceLevel.left (lvl : PriceLevel) : Option Int64 := if lvl.qty = 0 then none else some lvl.qty

/-- The quantity of the last entry for a price, unless it is zero. -/
def lastQty (entries : List PriceLevel) (price : Int64) : Option Int64 :=
  (lastEntry entries price).bind PriceLevel.left

/-- A price has what its last entry left, or what it had when there is none. -/
theorem getElem?_applyLevels_eq (side : BookSide) (levels : List PriceLevel) (price : Int64) :
    (applyLevels side levels)[price]? =
      (lastEntry levels price).elim side[price]? PriceLevel.left := by
  have read := congrFun (getElem?_applyLevels side levels) price
  have writes : (levels.map PriceLevel.write).filter (·.1 = price) =
      (levels.filter (·.price = price)).map PriceLevel.write := by
    rw [List.filter_map]
    rfl
  rw [overwrite_eq_getLast, writes, List.getLast?_map] at read
  rw [read, lastEntry]
  cases (levels.filter (·.price = price)).getLast? <;> rfl

theorem getElem?_applyLevels_empty (entries : List PriceLevel) (price : Int64) :
    (applyLevels ∅ entries)[price]? = lastQty entries price := by
  rw [getElem?_applyLevels_eq, Std.ExtTreeMap.getElem?_empty, lastQty]
  cases lastEntry entries price <;> rfl

private theorem insertPositive_eq (side : BookSide) (levels : List PriceLevel) :
    insertPositive side levels = applyLevels side (levels.filter (0 < ·.qty)) := by
  induction levels generalizing side with
  | nil => rfl
  | cons lvl rest ih =>
    by_cases positive : 0 < lvl.qty
    · have nonzero : lvl.qty ≠ 0 := (Int64.ne_of_lt positive).symm
      have inserted : insertPositive side (lvl :: rest) =
          insertPositive (side.insert lvl.price lvl.qty) rest := by
        simp only [insertPositive, List.foldl_cons, gt_iff_lt, if_pos positive]
      rw [inserted, ih, List.filter_cons_of_pos (by simpa using positive), applyLevels,
        applyLevels, List.foldl_cons, if_neg nonzero]
    · have skipped : insertPositive side (lvl :: rest) = insertPositive side rest := by
        simp only [insertPositive, List.foldl_cons, gt_iff_lt, if_neg positive]
      rw [skipped, ih, List.filter_cons_of_neg (by simpa using positive)]

theorem side_applySnapshot (book : OrderBook) (snap : BookSnapshot) (side : Side) :
    (book.applySnapshot snap).side side =
      applyLevels ∅ ((snap.levels side).filter (0 < ·.qty)) := by
  cases side <;> exact insertPositive_eq ∅ _

theorem side_applyDelta (book : OrderBook) (delta : BookDelta) (side : Side) :
    (book.applyDelta delta).side side = applyLevels (book.side side) (delta.levels side) := by
  cases side <;> rfl

/-- Each side is what the entries since the latest snapshot make of an empty one. -/
theorem side_run (updates : List BookUpdate) (side : Side) :
    (OrderBook.run updates).side side =
      applyLevels ∅ (entriesSince (0 < ·.qty) side updates) := by
  induction updates using List.reverseRecOn with
  | nil => cases side <;> rfl
  | append_singleton before update ih =>
    rw [OrderBook.run, Machine.final_append, entriesSince, List.foldl_append, List.foldl_cons,
      List.foldl_nil]
    cases update with
    | snapshot snap => exact side_applySnapshot _ snap side
    | delta delta =>
      rw [applyLevels, List.foldl_append]
      exact (side_applyDelta _ delta side).trans (congrArg (applyLevels · (delta.levels side)) ih)

/-! ## Last write wins -/

/-- A book shows exactly these quantities, sorted, with the best levels in front. -/
structure OrderBook.Shows (book : OrderBook) (qty : Side → Int64 → Option Int64) : Prop where
  bids : ∀ price : Int64, book.bids[price]? = qty .bid price
  asks : ∀ price : Int64, book.asks[price]? = qty .ask price
  bids_descending : book.bidLevels.Pairwise fun better worse => worse.price < better.price
  asks_ascending : book.askLevels.Pairwise fun better worse => better.price < worse.price
  mem_bids : ∀ lvl, lvl ∈ book.bidLevels ↔ qty .bid lvl.price = some lvl.qty
  mem_asks : ∀ lvl, lvl ∈ book.askLevels ↔ qty .ask lvl.price = some lvl.qty
  bestBid : ∀ lvl, book.bestBid = some lvl ↔
    lvl ∈ book.bidLevels ∧ ∀ other ∈ book.bidLevels, other.price ≤ lvl.price
  bestAsk : ∀ lvl, book.bestAsk = some lvl ↔
    lvl ∈ book.askLevels ∧ ∀ other ∈ book.askLevels, lvl.price ≤ other.price
  noBid : book.bestBid = none ↔ book.bidLevels = []
  noAsk : book.bestAsk = none ↔ book.askLevels = []

private theorem OrderBook.shows_of_sides {book : OrderBook} {qty : Side → Int64 → Option Int64}
    (sides : ∀ side price, (book.side side)[price]? = qty side price) : book.Shows qty where
  bids := sides .bid
  asks := sides .ask
  bids_descending := book.bidLevels_descending
  asks_ascending := book.askLevels_ascending
  mem_bids lvl := by
    rw [mem_bidLevels]
    exact Eq.congr_left (sides .bid lvl.price)
  mem_asks lvl := by
    rw [mem_askLevels]
    exact Eq.congr_left (sides .ask lvl.price)
  bestBid lvl := bestBid_eq_some_iff
  bestAsk lvl := bestAsk_eq_some_iff
  noBid := by rw [bestBid_eq_head?, List.head?_eq_none_iff]
  noAsk := by rw [bestAsk_eq_head?, List.head?_eq_none_iff]

/-- A delta that carries the levels of a row of deltas and the last of their final ids. -/
structure BookDelta.Concatenates (merged : BookDelta) (deltas : List BookDelta) : Prop where
  present : deltas ≠ []
  bids : merged.bids = deltas.flatMap BookDelta.bids
  asks : merged.asks = deltas.flatMap BookDelta.asks
  finalUpdateId : merged.finalUpdateId = (deltas.getLast present).finalUpdateId

/-- A row of deltas does what one delta with all their levels does. -/
private theorem OrderBook.applyDeltas_eq {merged : BookDelta} {deltas : List BookDelta}
    (concatenates : merged.Concatenates deltas) (book : OrderBook) :
    book.applyDeltas deltas = book.applyDelta merged := by
  have bids : (book.applyDeltas deltas).bids = applyLevels book.bids merged.bids := by
    rw [applyDeltas_bids, concatenates.bids]
  have asks : (book.applyDeltas deltas).asks = applyLevels book.asks merged.asks := by
    rw [applyDeltas_asks, concatenates.asks]
  have lastUpdateId : (book.applyDeltas deltas).lastUpdateId = merged.finalUpdateId := by
    rw [applyDeltas_lastUpdateId, concatenates.finalUpdateId]
    conv_lhs => rw [← List.dropLast_append_getLast concatenates.present]
    exact reach_append_singleton _ _ _ _
  apply OrderBook.ext bids asks lastUpdateId
  · exact applyDeltas_stale book deltas
  · exact applyDeltas_staleReason book deltas

/-- The book is last-write-wins: it shows, for each price of each side, the last entry since the
latest snapshot, of which only the positive entries count, and a row of deltas is one delta that
carries all their levels. -/
theorem OrderBook.run_lastWrite (updates : List BookUpdate) :
    (run updates).Shows (fun side => lastQty (entriesSince (0 < ·.qty) side updates)) ∧
      ∀ (deltas : List BookDelta) (merged : BookDelta), merged.Concatenates deltas →
        (run updates).applyDeltas deltas = (run updates).applyDelta merged := by
  constructor
  · apply shows_of_sides
    intro side price
    rw [side_run, getElem?_applyLevels_empty]
  · intro deltas merged concatenates
    exact applyDeltas_eq concatenates (run updates)

/-- A snapshot with a best bid and ask, and two deltas that move the bid. -/
theorem OrderBook.run_lastWrite_snapshot :
    (run [.snapshot ⟨7, [⟨100, 5⟩], [⟨101, 3⟩]⟩]).applyDeltas
        [⟨8, 9, 7, [⟨100, 0⟩], []⟩, ⟨10, 11, 9, [⟨99, 4⟩, ⟨100, 1⟩], [⟨101, 2⟩]⟩] =
      (run [.snapshot ⟨7, [⟨100, 5⟩], [⟨101, 3⟩]⟩]).applyDelta
        ⟨8, 11, 7, [⟨100, 0⟩, ⟨99, 4⟩, ⟨100, 1⟩], [⟨101, 2⟩]⟩ :=
  (run_lastWrite _).2 _ _ ⟨List.cons_ne_nil _ _, rfl, rfl, rfl⟩

/-- A snapshot skips an entry whose quantity is zero: it does not remove what the same snapshot
listed at that price before. -/
theorem OrderBook.zero_skipped : ¬∀ updates : List BookUpdate,
    (∀ update ∈ updates, ∀ side, ∀ lvl ∈ update.levels side, 0 ≤ lvl.qty) →
      (run updates).Shows fun side => lastQty (entriesSince (fun _ => true) side updates) := by
  intro shows
  have nonNegative : ∀ update ∈ [BookUpdate.snapshot ⟨7, [⟨100, 5⟩, ⟨100, 0⟩], []⟩], ∀ side,
      ∀ lvl ∈ update.levels side, 0 ≤ lvl.qty := by
    intro update mem side
    obtain rfl := List.mem_singleton.mp mem
    cases side <;> decide
  have listed := (shows _ nonNegative).bids 100
  have kept : (run [.snapshot ⟨7, [⟨100, 5⟩, ⟨100, 0⟩], []⟩]).bids[(100 : Int64)]? =
      some (5 : Int64) := Std.ExtTreeMap.getElem?_insert_self
  rw [kept] at listed
  exact absurd listed (by decide)

end TradingConnectivity.MarketData
