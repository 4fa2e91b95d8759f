import Mathlib.Algebra.Order.SuccPred
import Mathlib.Data.Nat.SuccPred
import Mathlib.Data.List.Infix
import Mathlib.Data.List.Perm.Subperm
import TradingConnectivity.MarketData.Recovery

/-! # Spot recovery converges

The true book is the start book with the whole stream applied. A snapshot taken anywhere in the
stream may differ from the true book only on the prices of the event it falls into, and replaying
the events past the snapshot writes these prices again. Every instance that recovers therefore ends
with the true book, whichever snapshot it used.
-/

namespace TradingConnectivity.MarketData

/-- The first id of a delta as a natural number. -/
def BookDelta.first (delta : BookDelta) : ℕ := delta.firstUpdateId.toNat

/-- The final id of a delta as a natural number. -/
def BookDelta.final (delta : BookDelta) : ℕ := delta.finalUpdateId.toNat

/-- A contiguous spot stream after `start`: no event is empty and each begins one past the end of
its predecessor. -/
structure SpotStream (start : UInt64) (stream : List BookDelta) : Prop where
  consecutive : Consecutive BookDelta.first BookDelta.final start.toNat stream
  proper : ∀ d ∈ stream, d.first ≤ d.final

/-- The true book just before the event that contains the id, or at the boundary. -/
def bookAt (start : OrderBook) (stream : List BookDelta) (id : UInt64) : OrderBook :=
  start.applyDeltas (stream.filter fun d => d.final ≤ id.toNat)

/-- The prices on one side of the event that has the id strictly inside. -/
def Touched (side : BookDelta → List PriceLevel) (stream : List BookDelta) (id : UInt64)
    (price : Int64) : Prop :=
  ∃ d ∈ stream, d.first ≤ id.toNat ∧ id.toNat < d.final ∧ price ∈ (side d).map PriceLevel.price

/-- Levels without repeated prices, of positive quantity, that equal a side off some prices. -/
structure LevelsAgree (levels : List PriceLevel) (side : BookSide) (except : Int64 → Prop) :
    Prop where
  distinct : (levels.map PriceLevel.price).Nodup
  positive : ∀ lvl ∈ levels, 0 < lvl.qty
  agree : ∀ price, ¬except price → ∀ qty, ⟨price, qty⟩ ∈ levels ↔ side[price]? = some qty

/-- A snapshot of the stream, at an event boundary or strictly inside an event. -/
structure SnapshotOf (start : OrderBook) (stream : List BookDelta) (snapshot : BookSnapshot) :
    Prop where
  lower : start.lastUpdateId.toNat ≤ snapshot.updateId.toNat
  upper : snapshot.updateId.toNat ≤ reach BookDelta.final start.lastUpdateId.toNat stream
  bids : LevelsAgree snapshot.bids (bookAt start stream snapshot.updateId).bids
    (Touched BookDelta.bids stream snapshot.updateId)
  asks : LevelsAgree snapshot.asks (bookAt start stream snapshot.updateId).asks
    (Touched BookDelta.asks stream snapshot.updateId)

/-- A run of the stream, in order, that has every event past the snapshot. -/
structure RunPast (stream : List BookDelta) (snapshotId : UInt64) (run : List BookDelta) :
    Prop where
  infix_stream : run <:+: stream
  complete : ∀ d ∈ stream, snapshotId.toNat < d.final → d ∈ run

section stream

variable {start : OrderBook} {stream : List BookDelta} {snapshot : BookSnapshot}

/-- The stream splits into the events a snapshot covers and those past it. -/
theorem exists_split (increasing : stream.Pairwise fun d later => d.final < later.final)
    (id : UInt64) : ∃ before after, stream = before ++ after ∧
      (stream.filter fun d => d.final ≤ id.toNat) = before ∧
      (stream.filter fun d => id.toNat < d.final) = after := by
  obtain ⟨before, after, rfl, low, high⟩ := exists_cut id.toNat increasing
  refine ⟨before, after, rfl, ?_, ?_⟩
  · rw [List.filter_append, List.filter_eq_self.mpr, List.filter_eq_nil_iff.mpr, List.append_nil]
    · intro d member
      simpa using high d member
    · intro d member
      simpa using low d member
  · rw [List.filter_append, List.filter_eq_nil_iff.mpr, List.filter_eq_self.mpr, List.nil_append]
    · intro d member
      simpa using high d member
    · intro d member
      simpa using low d member

/-- A run with every event past the snapshot has exactly the stream's events past it. -/
theorem RunPast.filter_eq {snapshotId : UInt64} {run : List BookDelta}
    (past : RunPast stream snapshotId run)
    (increasing : stream.Pairwise fun d later => d.final < later.final) :
    (run.filter fun d => snapshotId.toNat < d.final) =
      stream.filter fun d => snapshotId.toNat < d.final := by
  have distinct : stream.Nodup := increasing.imp fun less same => absurd (same ▸ less) (lt_irrefl _)
  apply (past.infix_stream.sublist.filter _).eq_of_length_le
  apply List.Subperm.length_le
  apply List.Nodup.subperm (distinct.filter _)
  intro d member
  obtain ⟨inside, later⟩ := List.mem_filter.mp member
  exact List.mem_filter.mpr ⟨past.complete d inside (of_decide_eq_true later), later⟩

/-- Off the prices that the later events write, a snapshot side equals the true one. -/
theorem LevelsAgree.getElem?_eq {levels : List PriceLevel} {truth : BookSide}
    {side : BookDelta → List PriceLevel} {id : UInt64}
    (agrees : LevelsAgree levels truth (Touched side stream id)) {price : Int64}
    (unwritten : price ∉ ((stream.filter fun d => id.toNat < d.final).flatMap side).map
      PriceLevel.price) : (insertPositive ∅ levels)[price]? = truth[price]? := by
  have untouched : ¬Touched side stream id price := by
    rintro ⟨d, member, -, inside, listed⟩
    obtain ⟨lvl, found, rfl⟩ := List.mem_map.mp listed
    apply unwritten
    apply List.mem_map_of_mem
    exact List.mem_flatMap.mpr ⟨d, List.mem_filter.mpr ⟨member, decide_eq_true inside⟩, found⟩
  apply Option.ext
  intro qty
  rw [getElem?_insertPositive_eq_some agrees.distinct agrees.positive]
  exact agrees.agree price untouched qty

/-- Replaying the events past a snapshot gives the true book. -/
theorem SnapshotOf.replayed (taken : SnapshotOf start stream snapshot)
    (increasing : stream.Pairwise fun d later => d.final < later.final) (book : OrderBook) :
    ((book.applySnapshot snapshot).applyDeltas
      (stream.filter fun d => snapshot.updateId.toNat < d.final)).SameMarket
      (start.applyDeltas stream) := by
  obtain ⟨before, after, whole, covered, past⟩ := exists_split increasing snapshot.updateId
  have truth : start.applyDeltas stream =
      (bookAt start stream snapshot.updateId).applyDeltas after := by
    rw [bookAt, covered, ← OrderBook.applyDeltas_append, ← whole]
  have bids := taken.bids
  have asks := taken.asks
  rw [truth]
  constructor
  · rw [OrderBook.applyDeltas_bids, OrderBook.applyDeltas_bids, ← past]
    exact applyLevels_congr fun price unwritten => bids.getElem?_eq unwritten
  · rw [OrderBook.applyDeltas_asks, OrderBook.applyDeltas_asks, ← past]
    exact applyLevels_congr fun price unwritten => asks.getElem?_eq unwritten
  · rw [OrderBook.applyDeltas_lastUpdateId, OrderBook.applyDeltas_lastUpdateId, past]
    by_cases none : after = []
    · -- nothing is past the snapshot, so its id is where the stream ends
      have ends : (reach BookDelta.finalUpdateId start.lastUpdateId stream).toNat =
          reach BookDelta.final start.lastUpdateId.toNat stream :=
        (reach_comp BookDelta.finalUpdateId UInt64.toNat start.lastUpdateId stream).symm
      have complete : before = stream := by rw [whole, none, List.append_nil]
      have low : reach BookDelta.final start.lastUpdateId.toNat stream ≤
          snapshot.updateId.toNat := by
        apply reach_le taken.lower
        intro d member
        rw [← complete, ← covered] at member
        exact of_decide_eq_true (List.mem_filter.mp member).2
      have upper := taken.upper
      rw [none, reach_nil, reach_nil, bookAt, covered, complete,
        OrderBook.applyDeltas_lastUpdateId]
      apply UInt64.toNat_inj.mp
      change snapshot.updateId.toNat = _
      omega
    · exact reach_eq_of_ne_nil _ none _ _

/-- What a spot replay is given past a snapshot continues one event after the other. -/
private theorem scan_consecutive {last : UInt64} {events : List BufferedDelta}
    (consecutive : Consecutive BookDelta.first BookDelta.final last.toNat
      (events.map BufferedDelta.delta)) : scan spotPosition last events = (events, []) := by
  induction events generalizing last with
  | nil => rfl
  | cons e rest ih =>
    obtain ⟨begins, tail⟩ := consecutive
    have follows : e.delta.firstUpdateId.toNat = last.toNat + 1 := begins
    have bound := e.delta.firstUpdateId.toNat_lt
    have same : e.delta.firstUpdateId = last + 1 := by
      apply UInt64.toNat_inj.mp
      rw [follows, UInt64.toNat_succ (by omega)]
    have place : spotPosition last e.delta = .eq := Std.compare_eq_iff_eq.mpr same
    simp only [scan, place, ih tail]

/-- The events past a snapshot of a spot stream replay without a gap. -/
theorem SpotStream.scanFrom_eq (contiguous : SpotStream start.lastUpdateId stream)
    (taken : SnapshotOf start stream snapshot) {events : List BufferedDelta}
    (past : events.map BufferedDelta.delta =
      stream.filter fun d => snapshot.updateId.toNat < d.final) :
    scanFrom spotPosition snapshot.updateId events = (events, []) := by
  obtain ⟨before, after, whole, covered, later⟩ :=
    exists_split (contiguous.consecutive.increasing contiguous.proper) snapshot.updateId
  have tail : Consecutive BookDelta.first BookDelta.final
      (reach BookDelta.final start.lastUpdateId.toNat before) (events.map BufferedDelta.delta) := by
    rw [past, later]
    exact (Consecutive.append_iff.mp (whole ▸ contiguous.consecutive)).2
  have position : reach BookDelta.final start.lastUpdateId.toNat before ≤
      snapshot.updateId.toNat := by
    apply reach_le taken.lower
    intro d member
    rw [← covered] at member
    exact of_decide_eq_true (List.mem_filter.mp member).2
  cases events with
  | nil => rfl
  | cons e rest =>
    obtain ⟨begins, continues⟩ := tail
    have reaches : snapshot.updateId.toNat < e.delta.final := by
      have member : e.delta ∈ stream.filter fun d => snapshot.updateId.toNat < d.final := by
        rw [← past]
        exact List.mem_cons_self
      exact of_decide_eq_true (List.mem_filter.mp member).2
    have room := e.delta.finalUpdateId.toNat_lt
    have joins : e.delta.firstUpdateId ≤ snapshot.updateId + 1 := by
      rw [UInt64.le_iff_toNat_le, UInt64.toNat_succ (lt_of_le_of_lt reaches room)]
      exact begins.trans_le (Nat.succ_le_succ position)
    simp only [scanFrom, if_pos joins, scan_consecutive continues]

end stream

/-- The recovery of an instance whose buffer holds a run of the stream past its snapshot succeeds
with the true book. -/
theorem SpotStream.recovered {start : OrderBook} {stream : List BookDelta}
    (contiguous : SpotStream start.lastUpdateId stream) {snapshot : BookSnapshot}
    (taken : SnapshotOf start stream snapshot) (book : OrderBook) (validator : SequenceValidator)
    {buf : RecoveryBuffer}
    (run : RunPast stream snapshot.updateId (buf.events.map BufferedDelta.delta)) :
    (∃ outcome, (applySpotSnapshot snapshot book validator buf).result = .ok outcome) ∧
      (applySpotSnapshot snapshot book validator buf).book.stale = false ∧
      (applySpotSnapshot snapshot book validator buf).book.SameMarket
        (start.applyDeltas stream) := by
  have increasing := contiguous.consecutive.increasing contiguous.proper
  have past : (pastSnapshot snapshot.updateId buf.events).map BufferedDelta.delta =
      stream.filter fun d => snapshot.updateId.toNat < d.final := by
    rw [← run.filter_eq increasing, List.filter_map]
    rfl
  have recovers := applySnapshot_recovers spot_ordered snapshot book validator buf
  rw [contiguous.scanFrom_eq taken past] at recovers
  obtain ⟨ok, fresh⟩ := recovers.succeeds rfl
  have market := recovers.market
  rw [past] at market
  exact ⟨ok, fresh, market.trans (taken.replayed increasing book)⟩

/-- Every instance that recovers from a snapshot of a contiguous stream ends with the true book,
from any prior state, so instances that recover from different snapshots have equal checksums. -/
theorem spot_recovery_converges {start : OrderBook} {stream : List BookDelta}
    (contiguous : SpotStream start.lastUpdateId stream) :
    (∀ snapshot book validator buf, SnapshotOf start stream snapshot →
      RunPast stream snapshot.updateId (buf.events.map BufferedDelta.delta) →
      (∃ outcome, (applySpotSnapshot snapshot book validator buf).result = .ok outcome) ∧
        (applySpotSnapshot snapshot book validator buf).book.stale = false ∧
        (applySpotSnapshot snapshot book validator buf).book.SameMarket
          (start.applyDeltas stream)) ∧
      ∀ snapshot book validator buf other book' validator' buf',
        SnapshotOf start stream snapshot →
        RunPast stream snapshot.updateId (buf.events.map BufferedDelta.delta) →
        SnapshotOf start stream other →
        RunPast stream other.updateId (buf'.events.map BufferedDelta.delta) →
        (applySpotSnapshot snapshot book validator buf).book.checksum =
          (applySpotSnapshot other book' validator' buf').book.checksum := by
  constructor
  · intro snapshot book validator buf taken run
    exact contiguous.recovered taken book validator run
  · intro snapshot book validator buf other book' validator' buf' taken run taken' run'
    obtain ⟨-, -, first⟩ := contiguous.recovered taken book validator run
    obtain ⟨-, -, second⟩ := contiguous.recovered taken' book' validator' run'
    rw [first.checksum_eq, second.checksum_eq]

section witness

private def startBook : OrderBook := { OrderBook.new with lastUpdateId := 10 }

private def firstEvent : BookDelta := ⟨11, 13, 10, [⟨100, 5⟩], []⟩

private def secondEvent : BookDelta := ⟨14, 15, 13, [⟨100, 0⟩, ⟨99, 7⟩], [⟨101, 2⟩]⟩

private def buffered : RecoveryBuffer :=
  { RecoveryBuffer.new with events := [⟨firstEvent, 0, 80⟩, ⟨secondEvent, 1, 96⟩] }

/-- One instance recovers from inside the first event, another one from its end. -/
theorem spot_recovery_converges_inside :
    (applySpotSnapshot ⟨12, [⟨100, 4⟩], []⟩ .new .new buffered).book.checksum =
      (applySpotSnapshot ⟨13, [⟨100, 5⟩], []⟩ .new .new buffered).book.checksum := by
  have contiguous : SpotStream startBook.lastUpdateId [firstEvent, secondEvent] := by
    refine ⟨⟨rfl, rfl, trivial⟩, ?_⟩
    simp [BookDelta.first, BookDelta.final, firstEvent, secondEvent]
  have inside : SnapshotOf startBook [firstEvent, secondEvent] ⟨12, [⟨100, 4⟩], []⟩ := by
    refine ⟨by decide, by decide, ⟨by simp, by decide, ?_⟩, ⟨by simp, by simp, ?_⟩⟩
    · intro price untouched qty
      have other : price ≠ 100 := by
        rintro rfl
        exact untouched ⟨firstEvent, List.mem_cons_self, by decide, by decide, by decide⟩
      simp [bookAt, BookDelta.final, firstEvent, secondEvent, startBook, OrderBook.new, other]
    · simp [bookAt, BookDelta.final, firstEvent, secondEvent, startBook, OrderBook.new]
  have boundary : SnapshotOf startBook [firstEvent, secondEvent] ⟨13, [⟨100, 5⟩], []⟩ := by
    refine ⟨by decide, by decide, ⟨by simp, by decide, ?_⟩, ⟨by simp, by simp, ?_⟩⟩
    · intro price _ qty
      have read : (bookAt startBook [firstEvent, secondEvent] 13).bids[price]? = some qty ↔
          100 = price ∧ 5 = qty := by
        simp [bookAt, BookDelta.final, firstEvent, secondEvent, startBook, OrderBook.new,
          OrderBook.applyDelta, applyLevels, Std.ExtTreeMap.getElem?_insert]
      rw [read, List.mem_singleton, PriceLevel.mk.injEq, eq_comm, @eq_comm _ qty]
    · simp [bookAt, BookDelta.final, firstEvent, secondEvent, startBook, OrderBook.new,
        OrderBook.applyDelta, applyLevels]
  have run : ∀ id, RunPast [firstEvent, secondEvent] id
      (buffered.events.map BufferedDelta.delta) := fun id =>
    ⟨List.infix_rfl, fun d member _ => member⟩
  exact (spot_recovery_converges contiguous).2 _ _ _ _ _ _ _ _ inside (run 12) boundary (run 13)

end witness

end TradingConnectivity.MarketData
