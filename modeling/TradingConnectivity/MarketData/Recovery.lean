import TradingConnectivity.MarketData.OrderBook
import TradingConnectivity.MarketData.Sequence
import TradingConnectivity.ToMathlib.FixedWidth

/-! # Recovering a book from a snapshot

While a book is stale its deltas wait in a recovery buffer. Applying a snapshot empties the buffer
and replays what lies past the snapshot through the venue's validator. The two venues differ only in
the validator they call, so the procedure is written once. `scan` says what a replay does to a list
of deltas in terms of their ids alone (`replay_active`, `replay_bridging`).
-/

namespace TradingConnectivity.MarketData

/-! ## The buffer -/

/-- A depth delta held inside the recovery buffer. -/
structure BufferedDelta where
  delta : BookDelta
  recvTs : Int64
  encodedSize : ℕ
deriving DecidableEq, Repr

/-- Which limit caused the overflow. -/
inductive OverflowReason
  | age
  | eventCount
  | byteSize
deriving DecidableEq, Repr

inductive PushResult
  | accepted
  | overflow (reason : OverflowReason)
deriving DecidableEq, Repr

/-- The largest size the platform counts. -/
def usizeMax : ℕ := 2 ^ 64 - 1

/-- The buffer of one symbol; sizes are natural numbers up to `usizeMax`. -/
structure RecoveryBuffer where
  events : List BufferedDelta
  totalBytes : ℕ
  maxEvents : ℕ
  maxBytes : ℕ
  maxAgeNs : Int64
deriving DecidableEq, Repr

namespace RecoveryBuffer

def withLimits (maxEvents maxBytes : ℕ) (maxAgeNs : Int64) : RecoveryBuffer :=
  ⟨[], 0, maxEvents, maxBytes, maxAgeNs⟩

def new : RecoveryBuffer := withLimits 2048 (4 * 1024 * 1024) 10000000000

/-- The limits are checked in the order age, count, bytes; an overflow stores nothing. -/
def push (buf : RecoveryBuffer) (delta : BookDelta) (recvTs : Int64) (encodedSize : ℕ) :
    PushResult × RecoveryBuffer :=
  if buf.events.head?.any fun oldest => recvTs.saturatingSub oldest.recvTs > buf.maxAgeNs then
    (.overflow .age, buf)
  else if buf.events.length ≥ buf.maxEvents then (.overflow .eventCount, buf)
  -- the check saturates, the addition after it wraps
  else if min (buf.totalBytes + encodedSize) usizeMax > buf.maxBytes then
    (.overflow .byteSize, buf)
  else (.accepted, { buf with
    events := buf.events ++ [⟨delta, recvTs, encodedSize⟩]
    totalBytes := (buf.totalBytes + encodedSize) % (usizeMax + 1) })

/-- The events past the snapshot; the buffer is left empty. -/
def drainAfter (buf : RecoveryBuffer) (snapshotId : UInt64) :
    List BufferedDelta × RecoveryBuffer :=
  (buf.events.filter fun e => e.delta.finalUpdateId > snapshotId,
    { buf with events := [], totalBytes := 0 })

def clear (buf : RecoveryBuffer) : RecoveryBuffer := { buf with events := [], totalBytes := 0 }

end RecoveryBuffer

/-! ## The procedure -/

/-- The error of a replay; a failed snapshot fetch never reaches this procedure. In the futures
adapter the fields are `expected_pu` and `actual_pu`. -/
inductive RecoveryError
  | gapInReplay (expected actual : UInt64)
deriving DecidableEq, Repr

/-- Summary returned by a successful recovery. -/
structure RecoveryOutcome where
  snapshotId : UInt64
  replayed : ℕ
  discarded : ℕ
deriving DecidableEq, Repr

/-- What the recovery procedure calls on a venue's validator. -/
structure Venue (V : Type) where
  state : V → ValidationState
  onSnapshot : V → UInt64 → V
  validate : V → BookDelta → ValidateResult × V

/-- The spot adapter validates the first and the final id. -/
def spot : Venue SequenceValidator where
  state := SequenceValidator.state
  onSnapshot := SequenceValidator.onSnapshot
  validate v delta := v.validate delta.firstUpdateId delta.finalUpdateId

/-- The futures adapter also validates the previous final id. -/
def futures : Venue FuturesSequenceValidator where
  state := FuturesSequenceValidator.state
  onSnapshot := FuturesSequenceValidator.onSnapshot
  validate v delta := v.validate delta.firstUpdateId delta.finalUpdateId delta.prevUpdateId

/-- Everything a recovery call leaves behind. -/
structure Recovery (V : Type) where
  result : Except RecoveryError RecoveryOutcome
  book : OrderBook
  validator : V
  buffer : RecoveryBuffer

/-- The replay of the drained events: the counters or the error, the book and the validator. -/
def replay {V : Type} (venue : Venue V) (book : OrderBook) (validator : V)
    (replayed discarded : ℕ) :
    List BufferedDelta → Except RecoveryError (ℕ × ℕ) × OrderBook × V
  | [] => (.ok (replayed, discarded), book, validator)
  | buffered :: rest =>
    match venue.validate validator buffered.delta with
    | (.apply, validator') =>
      replay venue (book.applyDelta buffered.delta) validator' (replayed + 1) discarded rest
    | (.discard, validator') => replay venue book validator' replayed (discarded + 1) rest
    | (.gap expected actual _, validator') =>
      (.error (.gapInReplay expected actual), book, validator')
    -- cannot happen after a snapshot; counted as discarded
    | (.buffering, validator') => replay venue book validator' replayed (discarded + 1) rest

/-- Apply a snapshot, restart the validator and replay the buffered deltas past the snapshot. -/
def applySnapshot {V : Type} (venue : Venue V) (snapshot : BookSnapshot) (book : OrderBook)
    (validator : V) (recoveryBuf : RecoveryBuffer) : Recovery V :=
  let (candidates, drained) := recoveryBuf.drainAfter snapshot.updateId
  match replay venue (book.applySnapshot snapshot)
      (venue.onSnapshot validator snapshot.updateId) 0 0 candidates with
  | (.ok (replayed, discarded), book', validator') =>
    ⟨.ok ⟨snapshot.updateId, replayed, discarded⟩, book'.markRecovered, validator', drained⟩
  -- the early return leaves the stale flag as it was
  | (.error e, book', validator') => ⟨.error e, book', validator', drained⟩

def applySpotSnapshot : BookSnapshot → OrderBook → SequenceValidator → RecoveryBuffer →
    Recovery SequenceValidator := applySnapshot spot

def applyFuturesSnapshot : BookSnapshot → OrderBook → FuturesSequenceValidator → RecoveryBuffer →
    Recovery FuturesSequenceValidator := applySnapshot futures

/-! ## What a replay does -/

/-- A venue whose active validator compares an event with its position by `position`: `eq`
continues, `lt` is old, `gt` leaves a gap. Bridging out of a snapshot is the same everywhere. -/
structure Venue.Ordered {V : Type} (venue : Venue V) (position : UInt64 → BookDelta → Ordering) :
    Prop where
  snapshot : ∀ v id, venue.state (venue.onSnapshot v id) = .bridging id
  bridge : ∀ v id delta, venue.state v = .bridging id → id < delta.finalUpdateId →
    delta.firstUpdateId ≤ id + 1 → ∃ v', venue.validate v delta = (.apply, v') ∧
      venue.state v' = .active delta.finalUpdateId
  bridgeGap : ∀ v id delta, venue.state v = .bridging id → id < delta.finalUpdateId →
    ¬delta.firstUpdateId ≤ id + 1 → ∃ v' expected actual lastValid,
      venue.validate v delta = (.gap expected actual lastValid, v') ∧ venue.state v' = .stale id
  continues : ∀ v last delta, venue.state v = .active last → position last delta = .eq →
    ∃ v', venue.validate v delta = (.apply, v') ∧ venue.state v' = .active delta.finalUpdateId
  old : ∀ v last delta, venue.state v = .active last → position last delta = .lt →
    venue.validate v delta = (.discard, v)
  leavesGap : ∀ v last delta, venue.state v = .active last → position last delta = .gt →
    ∃ v' expected actual lastValid,
      venue.validate v delta = (.gap expected actual lastValid, v') ∧ venue.state v' = .stale last

/-- A spot event continues the book when it begins one past the last accepted id. -/
def spotPosition (last : UInt64) (delta : BookDelta) : Ordering :=
  compare delta.firstUpdateId (last + 1)

/-- A futures event continues the book when it names the last accepted id as its predecessor. -/
def futuresPosition (last : UInt64) (delta : BookDelta) : Ordering :=
  compare delta.prevUpdateId last

theorem spot_ordered : spot.Ordered spotPosition where
  snapshot _ _ := rfl
  bridge := by
    rintro ⟨state⟩ id delta rfl past joins
    refine ⟨⟨.active delta.finalUpdateId⟩, ?_, rfl⟩
    simp only [spot, SequenceValidator.validate, if_neg (UInt64.not_le.mpr past), if_pos joins]
  bridgeGap := by
    rintro ⟨state⟩ id delta rfl past apart
    refine ⟨⟨.stale id⟩, id + 1, delta.firstUpdateId, id, ?_, rfl⟩
    simp only [spot, SequenceValidator.validate, if_neg (UInt64.not_le.mpr past), if_neg apart]
  continues := by
    rintro ⟨state⟩ last delta rfl same
    have follows := Std.compare_eq_iff_eq.mp same
    refine ⟨⟨.active delta.finalUpdateId⟩, ?_, rfl⟩
    simp only [spot, SequenceValidator.validate, if_pos follows]
  old := by
    rintro ⟨state⟩ last delta rfl below
    have before := Std.compare_eq_lt.mp below
    simp only [spot, SequenceValidator.validate, if_neg (UInt64.ne_of_lt before),
      if_neg (UInt64.lt_asymm before)]
  leavesGap := by
    rintro ⟨state⟩ last delta rfl above
    have beyond := Std.compare_eq_gt.mp above
    refine ⟨⟨.stale last⟩, last + 1, delta.firstUpdateId, last, ?_, rfl⟩
    simp only [spot, SequenceValidator.validate, if_neg (UInt64.ne_of_lt beyond).symm,
      if_pos beyond]

theorem futures_ordered : futures.Ordered futuresPosition where
  snapshot _ _ := rfl
  bridge := by
    rintro ⟨state⟩ id delta rfl past joins
    refine ⟨⟨.active delta.finalUpdateId⟩, ?_, rfl⟩
    simp only [futures, FuturesSequenceValidator.validate, if_neg (UInt64.not_le.mpr past),
      if_pos joins]
  bridgeGap := by
    rintro ⟨state⟩ id delta rfl past apart
    refine ⟨⟨.stale id⟩, id, delta.prevUpdateId, id, ?_, rfl⟩
    simp only [futures, FuturesSequenceValidator.validate, if_neg (UInt64.not_le.mpr past),
      if_neg apart]
  continues := by
    rintro ⟨state⟩ last delta rfl same
    have follows := Std.compare_eq_iff_eq.mp same
    refine ⟨⟨.active delta.finalUpdateId⟩, ?_, rfl⟩
    simp only [futures, FuturesSequenceValidator.validate, if_pos follows]
  old := by
    rintro ⟨state⟩ last delta rfl below
    have before := Std.compare_eq_lt.mp below
    simp only [futures, FuturesSequenceValidator.validate, if_neg (UInt64.ne_of_lt before),
      if_pos before]
  leavesGap := by
    rintro ⟨state⟩ last delta rfl above
    have beyond := Std.compare_eq_gt.mp above
    refine ⟨⟨.stale last⟩, last, delta.prevUpdateId, last, ?_, rfl⟩
    simp only [futures, FuturesSequenceValidator.validate, if_neg (UInt64.ne_of_lt beyond).symm,
      if_neg (UInt64.lt_asymm beyond)]

section scan

variable (position : UInt64 → BookDelta → Ordering)

/-- The events a replay applies after `last`, and those from the first gap onward. -/
def scan : UInt64 → List BufferedDelta → List BufferedDelta × List BufferedDelta
  | _, [] => ([], [])
  | last, e :: rest =>
    match position last e.delta with
    | .lt => scan last rest
    | .eq => (e :: (scan e.delta.finalUpdateId rest).1, (scan e.delta.finalUpdateId rest).2)
    | .gt => ([], e :: rest)

/-- The same from a snapshot, for the events past it. -/
def scanFrom (snapshotId : UInt64) : List BufferedDelta → List BufferedDelta × List BufferedDelta
  | [] => ([], [])
  | e :: rest =>
    if e.delta.firstUpdateId ≤ snapshotId + 1 then
      (e :: (scan position e.delta.finalUpdateId rest).1,
        (scan position e.delta.finalUpdateId rest).2)
    else ([], e :: rest)

end scan

variable {V : Type} {venue : Venue V} {position : UInt64 → BookDelta → Ordering}

/-- A replay applies what the scan accepts. It succeeds exactly when nothing is left from a gap on,
and leaves the validator stale otherwise. -/
structure Replays (venue : Venue V) (outcome : Except RecoveryError (ℕ × ℕ) × OrderBook × V)
    (book : OrderBook) (scanned : List BufferedDelta × List BufferedDelta) : Prop where
  book_eq : outcome.2.1 = book.applyDeltas (scanned.1.map BufferedDelta.delta)
  succeeds : scanned.2 = [] → ∃ counters, outcome.1 = .ok counters
  fails : scanned.2 ≠ [] → (∃ expected actual, outcome.1 = .error (.gapInReplay expected actual)) ∧
    ∃ lastValid, venue.state outcome.2.2 = .stale lastValid

theorem replay_active (ordered : venue.Ordered position) (book : OrderBook) {validator : V}
    (replayed discarded : ℕ) {last : UInt64} (events : List BufferedDelta)
    (active : venue.state validator = .active last) :
    Replays venue (replay venue book validator replayed discarded events) book
      (scan position last events) := by
  induction events generalizing book validator replayed discarded last with
  | nil =>
    refine ⟨rfl, fun _ => ⟨_, rfl⟩, fun left => absurd rfl left⟩
  | cons e rest ih =>
    cases place : position last e.delta with
    | lt =>
      have step := ordered.old validator last e.delta active place
      simp only [replay, step, scan, place]
      exact ih book replayed (discarded + 1) active
    | eq =>
      obtain ⟨validator', step, active'⟩ := ordered.continues validator last e.delta active place
      simp only [replay, step, scan, place]
      obtain ⟨book_eq, succeeds, fails⟩ := ih (book.applyDelta e.delta) (replayed + 1)
        discarded active'
      exact ⟨book_eq, succeeds, fails⟩
    | gt =>
      obtain ⟨validator', expected, actual, lastValid, step, stale⟩ :=
        ordered.leavesGap validator last e.delta active place
      simp only [replay, step, scan, place]
      exact ⟨rfl, fun none => absurd none (List.cons_ne_nil _ _),
        fun _ => ⟨⟨expected, actual, rfl⟩, last, stale⟩⟩

theorem replay_bridging (ordered : venue.Ordered position) (book : OrderBook) {validator : V}
    (replayed discarded : ℕ) {id : UInt64} {events : List BufferedDelta}
    (bridging : venue.state validator = .bridging id)
    (past : ∀ e ∈ events, id < e.delta.finalUpdateId) :
    Replays venue (replay venue book validator replayed discarded events) book
      (scanFrom position id events) := by
  cases events with
  | nil => exact ⟨rfl, fun _ => ⟨_, rfl⟩, fun left => absurd rfl left⟩
  | cons e rest =>
    have later := past e List.mem_cons_self
    by_cases joins : e.delta.firstUpdateId ≤ id + 1
    · obtain ⟨validator', step, active⟩ := ordered.bridge validator id e.delta bridging later joins
      simp only [replay, step, scanFrom, if_pos joins]
      obtain ⟨book_eq, succeeds, fails⟩ := replay_active ordered
        (book.applyDelta e.delta) (replayed + 1) discarded rest active
      exact ⟨book_eq, succeeds, fails⟩
    · obtain ⟨validator', expected, actual, lastValid, step, stale⟩ :=
        ordered.bridgeGap validator id e.delta bridging later joins
      simp only [replay, step, scanFrom, if_neg joins]
      exact ⟨rfl, fun none => absurd none (List.cons_ne_nil _ _),
        fun _ => ⟨⟨expected, actual, rfl⟩, id, stale⟩⟩

/-- The events past a snapshot, oldest first. -/
def pastSnapshot (snapshotId : UInt64) (events : List BufferedDelta) : List BufferedDelta :=
  events.filter fun e => e.delta.finalUpdateId > snapshotId

/-- What a recovery call does, in terms of the scan of the buffered events past the snapshot. -/
structure Recovers (venue : Venue V) (snapshot : BookSnapshot) (book : OrderBook)
    (buf : RecoveryBuffer) (scanned : List BufferedDelta × List BufferedDelta)
    (recovery : Recovery V) : Prop where
  market : recovery.book.SameMarket
    ((book.applySnapshot snapshot).applyDeltas (scanned.1.map BufferedDelta.delta))
  drained : recovery.buffer = { buf with events := [], totalBytes := 0 }
  succeeds : scanned.2 = [] →
    (∃ outcome, recovery.result = .ok outcome) ∧ recovery.book.stale = false
  fails : scanned.2 ≠ [] →
    (∃ expected actual, recovery.result = .error (.gapInReplay expected actual)) ∧
      recovery.book.stale = book.stale ∧
      ∃ lastValid, venue.state recovery.validator = .stale lastValid

theorem applySnapshot_recovers (ordered : venue.Ordered position) (snapshot : BookSnapshot)
    (book : OrderBook) (validator : V) (buf : RecoveryBuffer) :
    Recovers venue snapshot book buf
      (scanFrom position snapshot.updateId (pastSnapshot snapshot.updateId buf.events))
      (applySnapshot venue snapshot book validator buf) := by
  have past : ∀ e ∈ pastSnapshot snapshot.updateId buf.events,
      snapshot.updateId < e.delta.finalUpdateId := by
    intro e member
    exact of_decide_eq_true (List.mem_filter.mp member).2
  have replays := replay_bridging ordered (book.applySnapshot snapshot) 0 0
    (ordered.snapshot validator snapshot.updateId) past
  obtain ⟨book_eq, succeeds, fails⟩ := replays
  have drain : buf.drainAfter snapshot.updateId =
      (pastSnapshot snapshot.updateId buf.events, { buf with events := [], totalBytes := 0 }) := rfl
  simp only [applySnapshot, drain]
  generalize replay venue (book.applySnapshot snapshot)
    (venue.onSnapshot validator snapshot.updateId) 0 0
    (pastSnapshot snapshot.updateId buf.events) = outcome at book_eq succeeds fails
  obtain ⟨result, book', validator'⟩ := outcome
  cases result with
  | ok counters =>
    refine ⟨?_, rfl, fun _ => ⟨⟨_, rfl⟩, rfl⟩, fun left => ?_⟩
    · subst book_eq
      exact ⟨rfl, rfl, rfl⟩
    · obtain ⟨⟨expected, actual, wrong⟩, -⟩ := fails left
      exact absurd wrong (by simp)
  | error e =>
    refine ⟨?_, rfl, fun none => ?_, fun left => ?_⟩
    · subst book_eq
      exact ⟨rfl, rfl, rfl⟩
    · obtain ⟨counters, wrong⟩ := succeeds none
      exact absurd wrong (by simp)
    · obtain ⟨⟨expected, actual, same⟩, stale⟩ := fails left
      refine ⟨⟨expected, actual, ?_⟩, ?_, stale⟩
      · exact congrArg _ (Except.error.inj same)
      · subst book_eq
        exact OrderBook.applyDeltas_stale _ _

end TradingConnectivity.MarketData
