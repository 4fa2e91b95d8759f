import Mathlib.Data.Finset.Max
import TradingConnectivity.MarketData.Recovery

/-! # Failed recoveries

A replay that meets a gap returns early. By then the buffer is empty and nothing has marked the
book stale. `FailsSafely` asks of such a call that the book and the validator are stale and that a
later snapshot can still be continued with the events from the gap onward. It holds only when there
is no gap, or in the degenerate case where no later snapshot could use these events.
-/

namespace TradingConnectivity.MarketData

variable {V : Type} {venue : Venue V} {position : UInt64 → BookDelta → Ordering}

/-- The buffered events past a snapshot from the first gap onward. -/
def fromGap (position : UInt64 → BookDelta → Ordering) (snapshotId : UInt64)
    (events : List BufferedDelta) : List BufferedDelta :=
  (scanFrom position snapshotId (pastSnapshot snapshotId events)).2

/-- A newer snapshot id at or after the ids missing before `waiting`, and before the end of some of
these events. -/
def Covers (snapshotId : UInt64) (waiting : List BufferedDelta) (later : UInt64) : Prop :=
  snapshotId < later ∧ (∀ gap ∈ waiting.head?, gap.delta.firstUpdateId.toNat ≤ later.toNat + 1) ∧
    ∃ e ∈ waiting, later < e.delta.finalUpdateId

/-- A failed call leaves a stale book, a stale validator and, for every later snapshot that covers
the gap, the market that the events from the gap onward would still give. -/
def FailsSafely (venue : Venue V) (position : UInt64 → BookDelta → Ordering)
    (snapshot : BookSnapshot) (book : OrderBook) (validator : V) (buf : RecoveryBuffer) : Prop :=
  let failed := applySnapshot venue snapshot book validator buf
  let waiting := fromGap position snapshot.updateId buf.events
  (∃ expected actual, failed.result = .error (.gapInReplay expected actual)) →
    failed.book.stale = true ∧ (∃ lastValid, venue.state failed.validator = .stale lastValid) ∧
      ∀ later meanwhile, Covers snapshot.updateId waiting later.updateId →
        (applySnapshot venue later failed.book failed.validator
          { failed.buffer with events := failed.buffer.events ++ meanwhile }).book.SameMarket
        (applySnapshot venue later failed.book failed.validator
          { failed.buffer with events := waiting ++ meanwhile }).book

/-! ## Where a recovery ends -/

/-- The last update id of a book recovered from these events. -/
def recoveredId (position : UInt64 → BookDelta → Ordering) (snapshotId : UInt64)
    (events : List BufferedDelta) : UInt64 :=
  reach (fun e => e.delta.finalUpdateId) snapshotId
    (scanFrom position snapshotId (pastSnapshot snapshotId events)).1

private theorem applySnapshot_lastUpdateId (ordered : venue.Ordered position)
    (snapshot : BookSnapshot)
    (book : OrderBook) (validator : V) (buf : RecoveryBuffer) :
    (applySnapshot venue snapshot book validator buf).book.lastUpdateId =
      recoveredId position snapshot.updateId buf.events := by
  have market := (applySnapshot_recovers ordered snapshot book validator buf).market
  rw [market.lastUpdateId, OrderBook.applyDeltas_lastUpdateId, recoveredId, reach, reach,
    List.foldl_map]
  rfl

private theorem scan_subset {last : UInt64} {events : List BufferedDelta} :
    ∀ e ∈ (scan position last events).1, e ∈ events := by
  induction events generalizing last with
  | nil => exact fun e member => absurd member List.not_mem_nil
  | cons head rest ih =>
    intro e member
    cases place : position last head.delta with
    | lt =>
      simp only [scan, place] at member
      exact List.mem_cons_of_mem _ (ih e member)
    | eq =>
      simp only [scan, place] at member
      rcases List.mem_cons.mp member with rfl | later
      · exact List.mem_cons_self
      · exact List.mem_cons_of_mem _ (ih e later)
    | gt =>
      simp only [scan, place] at member
      exact absurd member List.not_mem_nil

/-- With nothing past the snapshot the book ends at the snapshot. -/
private theorem recoveredId_nil (snapshotId : UInt64) : recoveredId position snapshotId
    [] = snapshotId :=
  rfl

/-- When the first event past the snapshot bridges, the book ends past the snapshot. -/
private theorem lt_recoveredId {snapshotId : UInt64} {events rest : List BufferedDelta}
    {e : BufferedDelta}
    (first : pastSnapshot snapshotId events = e :: rest)
    (joins : e.delta.firstUpdateId ≤ snapshotId + 1) :
    snapshotId < recoveredId position snapshotId events := by
  have past : ∀ d ∈ e :: rest, snapshotId < d.delta.finalUpdateId := by
    intro d member
    rw [← first] at member
    exact of_decide_eq_true (List.mem_filter.mp member).2
  simp only [recoveredId, first, scanFrom, if_pos joins, reach_cons]
  have inside : ∀ d ∈ (scan position e.delta.finalUpdateId rest).1,
      snapshotId < d.delta.finalUpdateId := fun d member =>
    past d (List.mem_cons_of_mem _ (scan_subset d member))
  exact lt_reach (past e List.mem_cons_self) inside

/-- When the first event past the snapshot leaves a gap, the book ends at the snapshot. -/
private theorem recoveredId_gap {snapshotId : UInt64} {events rest : List BufferedDelta}
    {e : BufferedDelta}
    (first : pastSnapshot snapshotId events = e :: rest)
    (apart : ¬e.delta.firstUpdateId ≤ snapshotId + 1) :
    recoveredId position snapshotId events = snapshotId := by
  simp only [recoveredId, first, scanFrom, if_neg apart, reach_nil]

/-! ## What is lost -/

/-- If any later snapshot could use the waiting events, some later snapshot ends elsewhere without
them: the one just before the furthest end among them. -/
theorem exists_recoveredId_ne (position : UInt64 → BookDelta → Ordering) {snapshotId id : UInt64}
    {waiting : List BufferedDelta} (covers : Covers snapshotId waiting id) :
    ∃ later meanwhile, Covers snapshotId waiting later ∧
      recoveredId position later meanwhile ≠ recoveredId position later (waiting ++ meanwhile) := by
  obtain ⟨newer, missing, e, member, before⟩ := covers
  obtain ⟨top, topMember, furthest⟩ := waiting.toFinset.exists_max_image
    (fun e => e.delta.finalUpdateId.toNat) ⟨e, List.mem_toFinset.mpr member⟩
  rw [List.mem_toFinset] at topMember
  have further := furthest e (List.mem_toFinset.mpr member)
  rw [UInt64.lt_iff_toNat_lt] at newer before
  obtain ⟨later, next⟩ : ∃ later : UInt64, later.toNat + 1 = top.delta.finalUpdateId.toNat :=
    UInt64.exists_toNat_succ (by omega)
  have room := top.delta.finalUpdateId.toNat_lt
  have succ : (later + 1).toNat = later.toNat + 1 := UInt64.toNat_succ (by omega)
  have topPast : later < top.delta.finalUpdateId := by
    rw [UInt64.lt_iff_toNat_lt]
    omega
  have covers' : Covers snapshotId waiting later := by
    refine ⟨?_, ?_, top, topMember, topPast⟩
    · rw [UInt64.lt_iff_toNat_lt]
      omega
    · intro gap head
      have := missing gap head
      omega
  have some : top ∈ pastSnapshot later waiting :=
    List.mem_filter.mpr ⟨topMember, decide_eq_true topPast⟩
  obtain ⟨c, rest, first⟩ := List.exists_cons_of_ne_nil (List.ne_nil_of_mem some)
  by_cases joins : c.delta.firstUpdateId ≤ later + 1
  · refine ⟨later, [], covers', ?_⟩
    rw [recoveredId_nil, List.append_nil]
    exact UInt64.ne_of_lt (lt_recoveredId first joins)
  · -- the waiting events open with a gap of their own, which one bridging event reveals
    let bridge : BufferedDelta :=
      ⟨⟨top.delta.finalUpdateId, top.delta.finalUpdateId, later, [], []⟩, 0, 0⟩
    have alone : pastSnapshot later [bridge] = [bridge] :=
      List.filter_cons_of_pos (decide_eq_true topPast)
    have behind : pastSnapshot later (waiting ++ [bridge]) = c :: (rest ++ [bridge]) := by
      rw [pastSnapshot, List.filter_append, ← pastSnapshot, ← pastSnapshot, first, alone]
      rfl
    refine ⟨later, [bridge], covers', ?_⟩
    rw [recoveredId_gap behind joins]
    apply (UInt64.ne_of_lt (lt_recoveredId alone _)).symm
    rw [UInt64.le_iff_toNat_le, succ, next]

/-- A failed call is safe exactly when there was no gap to fail on, or when the book was stale
before and no later snapshot could use the events from the gap onward. -/
theorem failsSafely_iff (ordered : venue.Ordered position) (snapshot : BookSnapshot)
    (book : OrderBook) (validator : V) (buf : RecoveryBuffer) :
    FailsSafely venue position snapshot book validator buf ↔
      fromGap position snapshot.updateId buf.events = [] ∨ book.stale = true ∧
        ∀ id, ¬Covers snapshot.updateId (fromGap position snapshot.updateId buf.events) id := by
  have recovers := applySnapshot_recovers ordered snapshot book validator buf
  constructor
  · intro safe
    by_cases none : fromGap position snapshot.updateId buf.events = []
    · exact Or.inl none
    · right
      obtain ⟨error, kept, -⟩ := recovers.fails none
      obtain ⟨stale, -, recoverable⟩ := safe error
      refine ⟨kept ▸ stale, fun id covers => ?_⟩
      obtain ⟨later, meanwhile, covers', differ⟩ := exists_recoveredId_ne position covers
      have same := (recoverable ⟨later, [], []⟩ meanwhile covers').lastUpdateId
      rw [applySnapshot_lastUpdateId ordered, applySnapshot_lastUpdateId ordered,
        recovers.drained] at same
      exact differ same
  · rintro (none | ⟨stale, uncovered⟩) ⟨expected, actual, error⟩
    · obtain ⟨⟨outcome, ok⟩, -⟩ := recovers.succeeds none
      exact absurd (ok.symm.trans error) (by simp)
    · have gapped : fromGap position snapshot.updateId buf.events ≠ [] := by
        intro none
        obtain ⟨⟨outcome, ok⟩, -⟩ := recovers.succeeds none
        exact absurd (ok.symm.trans error) (by simp)
      obtain ⟨-, kept, staleValidator⟩ := recovers.fails gapped
      exact ⟨kept.trans stale, staleValidator, fun later _ covers =>
        absurd covers (uncovered later.updateId)⟩

/-- A gap begins at least two ids past where a scan started, if positions are told apart by ids. -/
private theorem scan_gap_apart (start : UInt64) {last : UInt64} {events : List BufferedDelta}
    (apart : ∀ last e, e ∈ events → last.toNat + 1 < 2 ^ 64 → position last e.delta = .gt →
      last.toNat + 1 < e.delta.firstUpdateId.toNat)
    (past : ∀ e ∈ events, start < e.delta.finalUpdateId ∧ e.delta.finalUpdateId.toNat + 1 < 2 ^ 64)
    (low : start ≤ last) (room : last.toNat + 1 < 2 ^ 64) :
    ∀ gap ∈ (scan position last events).2.head?,
      gap ∈ events ∧ start.toNat + 1 < gap.delta.firstUpdateId.toNat := by
  induction events generalizing last with
  | nil => exact fun gap head => absurd head (by simp [scan])
  | cons e rest ih =>
    have apart' := fun last d member => apart last d (List.mem_cons_of_mem e member)
    have past' := fun d member => past d (List.mem_cons_of_mem e member)
    obtain ⟨beyond, room'⟩ := past e List.mem_cons_self
    intro gap head
    cases place : position last e.delta with
    | lt =>
      simp only [scan, place] at head
      obtain ⟨member, wide⟩ := ih apart' past' low room gap head
      exact ⟨List.mem_cons_of_mem _ member, wide⟩
    | eq =>
      simp only [scan, place] at head
      obtain ⟨member, wide⟩ := ih apart' past' (UInt64.le_of_lt beyond) room' gap head
      exact ⟨List.mem_cons_of_mem _ member, wide⟩
    | gt =>
      simp only [scan, place, List.head?_cons, Option.mem_some_iff] at head
      subst head
      have wide := apart last e List.mem_cons_self room place
      rw [UInt64.le_iff_toNat_le] at low
      exact ⟨List.mem_cons_self, by omega⟩

/-- When no event is empty and positions are told apart by ids, every gap can be covered: the id
just before it is newer than the snapshot. -/
theorem exists_covers {snapshotId : UInt64} {events : List BufferedDelta}
    (apart : ∀ last e, e ∈ events → last.toNat + 1 < 2 ^ 64 → position last e.delta = .gt →
      last.toNat + 1 < e.delta.firstUpdateId.toNat)
    (proper : ∀ e ∈ events, e.delta.firstUpdateId ≤ e.delta.finalUpdateId)
    (bounded : ∀ e ∈ events, e.delta.finalUpdateId.toNat + 1 < 2 ^ 64)
    (gapped : fromGap position snapshotId events ≠ []) :
    ∃ id, Covers snapshotId (fromGap position snapshotId events) id := by
  obtain ⟨gap, rest, opens⟩ := List.exists_cons_of_ne_nil gapped
  have inside : ∀ e ∈ pastSnapshot snapshotId events, e ∈ events := fun e member =>
    (List.mem_filter.mp member).1
  have past : ∀ e ∈ pastSnapshot snapshotId events, snapshotId < e.delta.finalUpdateId :=
    fun e member => of_decide_eq_true (List.mem_filter.mp member).2
  have found : gap ∈ events ∧ snapshotId.toNat + 1 < gap.delta.firstUpdateId.toNat := by
    unfold fromGap at opens
    cases first : pastSnapshot snapshotId events with
    | nil => simp [first, scanFrom] at opens
    | cons e others =>
      rw [first] at inside past opens
      have beyond := UInt64.lt_iff_toNat_lt.mp (past e List.mem_cons_self)
      have room := bounded e (inside e List.mem_cons_self)
      by_cases joins : e.delta.firstUpdateId ≤ snapshotId + 1
      · simp only [scanFrom, if_pos joins] at opens
        obtain ⟨member, wide⟩ := scan_gap_apart snapshotId
          (fun last d member => apart last d (inside d (List.mem_cons_of_mem _ member)))
          (fun d member => ⟨past d (List.mem_cons_of_mem _ member),
            bounded d (inside d (List.mem_cons_of_mem _ member))⟩)
          (UInt64.le_of_lt (past e List.mem_cons_self)) room gap (by rw [opens]; rfl)
        exact ⟨inside gap (List.mem_cons_of_mem _ member), wide⟩
      · simp only [scanFrom, if_neg joins, List.cons.injEq] at opens
        obtain ⟨rfl, -⟩ := opens
        rw [UInt64.le_iff_toNat_le, UInt64.toNat_succ (by omega)] at joins
        exact ⟨inside e List.mem_cons_self, by omega⟩
  obtain ⟨member, wide⟩ := found
  have ends := UInt64.le_iff_toNat_le.mp (proper gap member)
  obtain ⟨id, next⟩ : ∃ id : UInt64, id.toNat + 1 = gap.delta.firstUpdateId.toNat :=
    UInt64.exists_toNat_succ (by omega)
  refine ⟨id, ?_, ?_, gap, ?_, ?_⟩
  · rw [UInt64.lt_iff_toNat_lt]
    omega
  · intro head opening
    rw [opens, List.head?_cons, Option.mem_some_iff] at opening
    subst opening
    omega
  · rw [opens]
    exact List.mem_cons_self
  · rw [UInt64.lt_iff_toNat_lt]
    omega

private theorem spotPosition_apart {last : UInt64} {delta : BookDelta}
    (room : last.toNat + 1 < 2 ^ 64)
    (gap : spotPosition last delta = .gt) : last.toNat + 1 < delta.firstUpdateId.toNat := by
  have beyond := UInt64.lt_iff_toNat_lt.mp (Std.compare_eq_gt.mp gap)
  rwa [UInt64.toNat_succ room] at beyond

private theorem futuresPosition_apart {last : UInt64} {delta : BookDelta}
    (follows : delta.prevUpdateId < delta.firstUpdateId)
    (gap : futuresPosition last delta = .gt) : last.toNat + 1 < delta.firstUpdateId.toNat := by
  have beyond := UInt64.lt_iff_toNat_lt.mp (Std.compare_eq_gt.mp gap)
  have := UInt64.lt_iff_toNat_lt.mp follows
  omega

/-- For buffers of well-formed deltas the degenerate case does not arise: a failed recovery is safe
exactly when it had no gap to fail on. -/
theorem spot_failsSafely_iff_of_proper (snapshot : BookSnapshot) (book : OrderBook)
    (validator : SequenceValidator) {buf : RecoveryBuffer}
    (proper : ∀ e ∈ buf.events, e.delta.firstUpdateId ≤ e.delta.finalUpdateId)
    (bounded : ∀ e ∈ buf.events, e.delta.finalUpdateId.toNat + 1 < 2 ^ 64) :
    FailsSafely spot spotPosition snapshot book validator buf ↔
      fromGap spotPosition snapshot.updateId buf.events = [] := by
  rw [failsSafely_iff spot_ordered, or_iff_left_iff_imp]
  rintro ⟨-, uncovered⟩
  by_contra gapped
  obtain ⟨id, covers⟩ :=
    exists_covers (fun _ _ _ => spotPosition_apart) proper bounded gapped
  exact uncovered id covers

theorem futures_failsSafely_iff_of_proper (snapshot : BookSnapshot) (book : OrderBook)
    (validator : FuturesSequenceValidator) {buf : RecoveryBuffer}
    (proper : ∀ e ∈ buf.events, e.delta.firstUpdateId ≤ e.delta.finalUpdateId)
    (follows : ∀ e ∈ buf.events, e.delta.prevUpdateId < e.delta.firstUpdateId)
    (bounded : ∀ e ∈ buf.events, e.delta.finalUpdateId.toNat + 1 < 2 ^ 64) :
    FailsSafely futures futuresPosition snapshot book validator buf ↔
      fromGap futuresPosition snapshot.updateId buf.events = [] := by
  rw [failsSafely_iff futures_ordered, or_iff_left_iff_imp]
  rintro ⟨-, uncovered⟩
  by_contra gapped
  obtain ⟨id, covers⟩ :=
    exists_covers (fun _ e member _ => futuresPosition_apart (follows e member)) proper bounded
      gapped
  exact uncovered id covers

/-- On both venues a failed recovery is safe exactly when the buffered events past the snapshot
leave no gap, the degenerate case apart. -/
theorem failed_recovery_safe_iff (snapshot : BookSnapshot) (book : OrderBook)
    (buf : RecoveryBuffer) :
    (∀ validator, FailsSafely spot spotPosition snapshot book validator buf ↔
      fromGap spotPosition snapshot.updateId buf.events = [] ∨ book.stale = true ∧
        ∀ id, ¬Covers snapshot.updateId (fromGap spotPosition snapshot.updateId buf.events) id) ∧
      ∀ validator, FailsSafely futures futuresPosition snapshot book validator buf ↔
        fromGap futuresPosition snapshot.updateId buf.events = [] ∨ book.stale = true ∧
          ∀ id, ¬Covers snapshot.updateId
            (fromGap futuresPosition snapshot.updateId buf.events) id :=
  ⟨fun validator => failsSafely_iff spot_ordered snapshot book validator buf,
    fun validator => failsSafely_iff futures_ordered snapshot book validator buf⟩

/-- A fresh spot book is not marked stale by a failed recovery, and a futures book that was stale
before loses the delta behind the gap. -/
theorem failed_recovery_unsafe :
    ¬FailsSafely spot spotPosition ⟨100, [], []⟩ .new .new
      { RecoveryBuffer.new with events := [⟨⟨105, 110, 104, [⟨7, 1⟩], []⟩, 0, 80⟩] } ∧
    ¬FailsSafely futures futuresPosition ⟨100, [], []⟩
      (OrderBook.new.markStale .sequenceGap) .new
      { RecoveryBuffer.new with events := [⟨⟨105, 110, 104, [⟨7, 1⟩], []⟩, 0, 80⟩] } := by
  constructor
  · intro safe
    obtain ⟨stale, -⟩ := safe ⟨101, 105, rfl⟩
    exact absurd stale (by decide)
  · intro safe
    obtain ⟨-, -, recoverable⟩ := safe ⟨100, 104, rfl⟩
    have same := recoverable ⟨104, [], []⟩ [] ⟨by decide, by decide, by decide⟩
    exact absurd same.lastUpdateId (by decide)

end TradingConnectivity.MarketData
