import Std.Data.ExtTreeMap
import TradingConnectivity.Codec.Bytes
import TradingConnectivity.ToMathlib.Consecutive
import TradingConnectivity.ToMathlib.Overwrite

/-! # The order book

A single-symbol book keeps each side as a sorted map from price to quantity. A snapshot replaces
both sides, a delta writes absolute quantities and removes the levels whose quantity is zero. Read
as functions of the price, both are last-write-wins updates (`getElem?_applyLevels`,
`getElem?_insertPositive`). Message headers, symbols and scales take no part in any of this.
-/

namespace TradingConnectivity.MarketData

open Codec

/-- One level of a book side; a zero quantity removes the level. -/
structure PriceLevel where
  price : Int64
  qty : Int64
deriving DecidableEq, Repr

structure BookSnapshot where
  updateId : UInt64
  bids : List PriceLevel
  asks : List PriceLevel
deriving DecidableEq, Repr

structure BookDelta where
  firstUpdateId : UInt64
  finalUpdateId : UInt64
  /-- The final id of the previous event, on venues that send it. -/
  prevUpdateId : UInt64
  bids : List PriceLevel
  asks : List PriceLevel
deriving DecidableEq, Repr

inductive BookStaleReason
  | sequenceGap
  | webSocketReconnect
  | snapshotIncompatible
  | staleTimeout
  | malformedEvent
  | exchangeShutdown
  | bboMismatch
  | bufferOverflow
deriving DecidableEq, Repr

/-- One side of a book, from price to quantity. -/
abbrev BookSide := Std.ExtTreeMap Int64 Int64

@[ext] structure OrderBook where
  bids : BookSide
  asks : BookSide
  lastUpdateId : UInt64
  stale : Bool
  staleReason : Option BookStaleReason

/-- Insert the levels with a positive quantity. -/
def insertPositive (side : BookSide) (levels : List PriceLevel) : BookSide :=
  levels.foldl (fun side lvl => if lvl.qty > 0 then side.insert lvl.price lvl.qty else side) side

/-- Write absolute quantities; zero removes a level. -/
def applyLevels (side : BookSide) (levels : List PriceLevel) : BookSide :=
  levels.foldl (fun side lvl =>
    if lvl.qty = 0 then side.erase lvl.price else side.insert lvl.price lvl.qty) side

namespace OrderBook

def new : OrderBook := ⟨∅, ∅, 0, false, none⟩

def markStale (book : OrderBook) (reason : BookStaleReason) : OrderBook :=
  { book with stale := true, staleReason := some reason }

def markRecovered (book : OrderBook) : OrderBook :=
  { book with stale := false, staleReason := none }

def applySnapshot (book : OrderBook) (snap : BookSnapshot) : OrderBook :=
  { book with
    bids := insertPositive ∅ snap.bids
    asks := insertPositive ∅ snap.asks
    lastUpdateId := snap.updateId }

def applyDelta (book : OrderBook) (delta : BookDelta) : OrderBook :=
  { book with
    bids := applyLevels book.bids delta.bids
    asks := applyLevels book.asks delta.asks
    lastUpdateId := delta.finalUpdateId }

/-- Apply deltas in order. -/
def applyDeltas (book : OrderBook) (deltas : List BookDelta) : OrderBook :=
  deltas.foldl applyDelta book

/-- The bytes of one level as the checksum reads them. -/
def levelBytes (level : Int64 × Int64) : List UInt8 := int64Bytes level.1 ++ int64Bytes level.2

/-- What the checksum covers: the update id, the bids downwards and the asks upwards. -/
def checksumInput (book : OrderBook) : List UInt8 :=
  uint64Bytes book.lastUpdateId ++ book.bids.toList.reverse.flatMap levelBytes ++
    book.asks.toList.flatMap levelBytes

/-- The FNV-1a checksum of the book, 64 bits with wrapping multiplication. -/
def checksum (book : OrderBook) : UInt64 :=
  book.checksumInput.foldl (fun h byte => (h ^^^ byte.toUInt64) * 1099511628211)
    14695981039346656037

/-- Two books show the same market when their levels and their update ids are equal. -/
structure SameMarket (book other : OrderBook) : Prop where
  bids : book.bids = other.bids
  asks : book.asks = other.asks
  lastUpdateId : book.lastUpdateId = other.lastUpdateId

theorem SameMarket.trans {book other third : OrderBook} (first : book.SameMarket other)
    (second : other.SameMarket third) : book.SameMarket third :=
  ⟨first.bids.trans second.bids, first.asks.trans second.asks,
    first.lastUpdateId.trans second.lastUpdateId⟩

theorem SameMarket.checksum_eq {book other : OrderBook} (same : book.SameMarket other) :
    book.checksum = other.checksum := by
  simp only [checksum, checksumInput, same.bids, same.asks, same.lastUpdateId]

@[simp] theorem applyDeltas_nil (book : OrderBook) : book.applyDeltas [] = book := rfl

@[simp] theorem applyDeltas_cons (book : OrderBook) (delta : BookDelta) (rest : List BookDelta) :
    book.applyDeltas (delta :: rest) = (book.applyDelta delta).applyDeltas rest := rfl

theorem applyDeltas_stale (book : OrderBook) (deltas : List BookDelta) :
    (book.applyDeltas deltas).stale = book.stale := by
  induction deltas generalizing book with
  | nil => rfl
  | cons delta rest ih => exact ih (book.applyDelta delta)

theorem applyDeltas_staleReason (book : OrderBook) (deltas : List BookDelta) :
    (book.applyDeltas deltas).staleReason = book.staleReason := by
  induction deltas generalizing book with
  | nil => rfl
  | cons delta rest ih => exact ih (book.applyDelta delta)

theorem applyDeltas_append (book : OrderBook) (first second : List BookDelta) :
    book.applyDeltas (first ++ second) = (book.applyDeltas first).applyDeltas second :=
  List.foldl_append

end OrderBook

/-! ## Sides as functions -/

/-- A level of a delta as a write to the side. -/
def PriceLevel.write (lvl : PriceLevel) : Int64 × Option Int64 :=
  (lvl.price, if lvl.qty = 0 then none else some lvl.qty)

theorem getElem?_applyLevels (side : BookSide) (levels : List PriceLevel) :
    (fun price : Int64 => (applyLevels side levels)[price]?) =
      overwrite (fun price => side[price]?) (levels.map PriceLevel.write) := by
  induction levels generalizing side with
  | nil => rfl
  | cons lvl rest ih =>
    rw [List.map_cons, overwrite_cons]
    have now : (fun price : Int64 =>
        (if lvl.qty = 0 then side.erase lvl.price else side.insert lvl.price lvl.qty)[price]?) =
          Function.update (fun price => side[price]?) lvl.write.1 lvl.write.2 := by
      unfold PriceLevel.write
      split
      · exact getElem?_erase_eq_update side lvl.price
      · exact getElem?_insert_eq_update side lvl.price lvl.qty
    rw [← now]
    exact ih _

theorem getElem?_insertPositive (side : BookSide) {levels : List PriceLevel}
    (positive : ∀ lvl ∈ levels, 0 < lvl.qty) :
    (fun price : Int64 => (insertPositive side levels)[price]?) =
      overwrite (fun price => side[price]?) (levels.map fun lvl => (lvl.price, some lvl.qty)) := by
  induction levels generalizing side with
  | nil => rfl
  | cons lvl rest ih =>
    have inserted : insertPositive side (lvl :: rest) =
        insertPositive (side.insert lvl.price lvl.qty) rest := by
      simp only [insertPositive, List.foldl_cons, gt_iff_lt,
        if_pos (positive lvl List.mem_cons_self)]
    rw [inserted, ih _ fun other member => positive other (List.mem_cons_of_mem _ member),
      List.map_cons, overwrite_cons]
    rw [getElem?_insert_eq_update]

/-- Sides that read alike everywhere are equal. -/
theorem BookSide.ext {side other : BookSide}
    (alike : (fun price : Int64 => side[price]?) = fun price => other[price]?) : side = other :=
  Std.ExtTreeMap.ext_getElem? fun {price} => congrFun alike price

/-- The same levels make two sides equal that agree wherever the levels do not write. -/
theorem applyLevels_congr {side other : BookSide} {levels : List PriceLevel}
    (agree : ∀ price : Int64, price ∉ levels.map PriceLevel.price → side[price]? = other[price]?) :
    applyLevels side levels = applyLevels other levels := by
  apply BookSide.ext
  rw [getElem?_applyLevels, getElem?_applyLevels]
  apply overwrite_congr
  intro price unwritten
  apply agree
  rw [List.map_map] at unwritten
  exact unwritten

/-- A side filled from distinct positive levels holds exactly those levels. -/
theorem getElem?_insertPositive_eq_some {levels : List PriceLevel}
    (distinct : (levels.map PriceLevel.price).Nodup) (positive : ∀ lvl ∈ levels, 0 < lvl.qty)
    {price qty : Int64} :
    (insertPositive ∅ levels)[price]? = some qty ↔ ⟨price, qty⟩ ∈ levels := by
  have lookup := congrFun (getElem?_insertPositive ∅ positive) price
  have keys : (levels.map fun lvl => (lvl.price, some lvl.qty)).map Prod.fst =
      levels.map PriceLevel.price := by rw [List.map_map]; rfl
  rw [lookup]
  constructor
  · intro found
    by_contra missing
    by_cases listed : price ∈ levels.map PriceLevel.price
    · obtain ⟨lvl, member, rfl⟩ := List.mem_map.mp listed
      have read := overwrite_of_mem (f := fun p : Int64 => (∅ : BookSide)[p]?) (keys ▸ distinct)
        (List.mem_map_of_mem (f := fun lvl : PriceLevel => (lvl.price, some lvl.qty)) member)
      rw [found] at read
      obtain rfl := Option.some.inj read
      exact missing member
    · rw [overwrite_of_notMem (keys ▸ listed), Std.ExtTreeMap.getElem?_empty] at found
      exact absurd found (by simp)
  · intro member
    exact overwrite_of_mem (keys ▸ distinct)
      (List.mem_map_of_mem (f := fun lvl : PriceLevel => (lvl.price, some lvl.qty)) member)

namespace OrderBook

theorem applyDeltas_bids (book : OrderBook) (deltas : List BookDelta) :
    (book.applyDeltas deltas).bids = applyLevels book.bids (deltas.flatMap BookDelta.bids) := by
  induction deltas generalizing book with
  | nil => rfl
  | cons delta rest ih =>
    rw [applyDeltas_cons, ih, List.flatMap_cons, applyLevels, applyLevels, List.foldl_append]
    rfl

theorem applyDeltas_asks (book : OrderBook) (deltas : List BookDelta) :
    (book.applyDeltas deltas).asks = applyLevels book.asks (deltas.flatMap BookDelta.asks) := by
  induction deltas generalizing book with
  | nil => rfl
  | cons delta rest ih =>
    rw [applyDeltas_cons, ih, List.flatMap_cons, applyLevels, applyLevels, List.foldl_append]
    rfl

theorem applyDeltas_lastUpdateId (book : OrderBook) (deltas : List BookDelta) :
    (book.applyDeltas deltas).lastUpdateId =
      reach BookDelta.finalUpdateId book.lastUpdateId deltas := by
  induction deltas generalizing book with
  | nil => rfl
  | cons delta rest ih => exact ih (book.applyDelta delta)

end OrderBook

end TradingConnectivity.MarketData
