import TradingConnectivity.Shard.SpotSymbol

/-! # The moves of a symbol

Whatever the handling of an input does, it does in moves: single changes of the state together with
the effect that reports them. A move says under which circumstances it is made and which part of the
input it uses, so that a property of every move is a property of every run (`moves_handle`).
-/

namespace TradingConnectivity.Shard

open ConnectorCore (InstrumentDefinition FeedState)
open MarketData

namespace SymbolInput

/-- The depth event of an input. -/
def delta? : SymbolInput → Option BookDelta
  | delta bd _ _ _ _ => some bd
  | bestBidOffer _ _ _ | retry _ _ | validate _ _ => none

/-- The snapshot that is fetched for a recovery. -/
def recoverySnapshot? : SymbolInput → Option BookSnapshot
  | delta _ _ _ _ fetched | retry _ fetched => fetched
  | bestBidOffer _ _ _ | validate _ _ => none

/-- The time of the clock at which the circuit breaker is asked. -/
def clock? : SymbolInput → Option Int64
  | delta _ _ _ now _ | retry now _ => some now
  | bestBidOffer _ _ _ | validate _ _ => none

end SymbolInput

namespace SymbolState

/-- Why a feed state is set; a recovered feed is set live by the recovery itself. -/
inductive FeedReason (state : SymbolState) : FeedState → Prop
  | degraded : FeedReason state .degraded
  | connected (connecting : state.feedState = .connecting) : FeedReason state .live
  | recovering (stale : state.isStale) : FeedReason state .recovering
  | stale (stale : state.isStale) : FeedReason state .stale

/-- One move of the handling of an input. -/
inductive Move (input : SymbolInput) : Work SymbolState Effect → Work SymbolState Effect → Prop
  | feed (work : Work SymbolState Effect) {new : FeedState} (ts : Int64)
      (reason : FeedReason work.state new) : Move input work (setFeedState new ts work)
  | gap (work : Work SymbolState Effect) (expected actual : UInt64) (ts : Int64) :
      Move input work (work.emit (.announce (.gapDetected expected actual) ts))
  | stale (work : Work SymbolState Effect) (reason : BookStaleReason) (ts : Int64) :
      Move input work (markStale reason ts work)
  | fetch (work : Work SymbolState Effect) {now : Int64} (stale : work.state.isStale)
      (closed : work.state.circuit.openUntil = none) (clock : input.clock? = some now) :
      Move input work (work.emit (.fetchSnapshot now))
  | compare (work : Work SymbolState Effect) (now : Int64) :
      Move input work (work.emit (.fetchComparison now))
  | recovered (work : Work SymbolState Effect) {snapshot : BookSnapshot} (now : Int64)
      {outcome : RecoveryOutcome} (stale : work.state.isStale)
      (fetched : input.recoverySnapshot? = some snapshot)
      (succeeded : (work.state.recovery snapshot).result = .ok outcome) :
      Move input work (finishRecovery outcome now (work.update (·.withRecovery snapshot)))
  | replayed (work : Work SymbolState Effect) {snapshot : BookSnapshot} {e : RecoveryError}
      (stale : work.state.isStale) (fetched : input.recoverySnapshot? = some snapshot)
      (failed : (work.state.recovery snapshot).result = .error e) :
      Move input work (work.update (·.withRecovery snapshot))
  | check (work : Work SymbolState Effect) {now : Int64} (clock : input.clock? = some now) :
      Move input work (work.update ({ · with circuit := (work.state.circuit.check now).1 }))
  | failure (work : Work SymbolState Effect) {now : Int64} (clock : input.clock? = some now) :
      Move input work (work.update ({ · with circuit := (work.state.circuit.recordFailure now).1 }))
  | compared (work : Work SymbolState Effect) (bboValidator : BboValidator) :
      Move input work (work.update ({ · with bboValidator }))
  | push (work : Work SymbolState Effect) {bd : BookDelta} (recvTs : Int64) (encodedLen : ℕ)
      (received : input.delta? = some bd) :
      Move input work (work.update ({ · with
        recoveryBuf := (work.state.recoveryBuf.push bd recvTs encodedLen).2 }))
  | clear (work : Work SymbolState Effect) :
      Move input work (work.update ({ · with recoveryBuf := work.state.recoveryBuf.clear }))
  | seed (work : Work SymbolState Effect) {bd : BookDelta} (received : input.delta? = some bd)
      (fresh : work.state.validator.lastValidId = none) :
      Move input work (work.update ({ · with
        validator := work.state.validator.onSnapshot (seedId bd) }))
  | apply (work : Work SymbolState Effect) {bd : BookDelta} (received : input.delta? = some bd)
      (accepted : (work.state.validation bd).1 = .apply) :
      Move input work (work.update ({ · with
        validator := (work.state.validation bd).2, book := work.state.book.applyDelta bd }))
  | skip (work : Work SymbolState Effect) {bd : BookDelta} (received : input.delta? = some bd)
      (refused : (work.state.validation bd).1 ≠ .apply) :
      Move input work (work.update ({ · with validator := (work.state.validation bd).2 }))

/-- A sequence of moves. -/
abbrev Moves (input : SymbolInput) : Work SymbolState Effect → Work SymbolState Effect → Prop :=
  Relation.ReflTransGen (Move input)

variable {input : SymbolInput} {start work : Work SymbolState Effect}

@[simp] theorem isStale_setFeedState (new : FeedState) (ts : Int64) :
    (setFeedState new ts work).state.isStale = work.state.isStale := by
  rw [setFeedState]
  split <;> rfl

@[simp] theorem circuit_setFeedState (new : FeedState) (ts : Int64) :
    (setFeedState new ts work).state.circuit = work.state.circuit := by
  rw [setFeedState]
  split <;> rfl

@[simp] theorem isStale_recordFailure (now : Int64) :
    (recordFailure now work).2.state.isStale = work.state.isStale := by
  simp only [recordFailure]
  split
  · exact isStale_setFeedState ..
  · rfl

@[simp] theorem isStale_pushToRecovery (bd : BookDelta) (encodedLen : ℕ) (recvTs now : Int64) :
    (pushToRecovery bd encodedLen recvTs now work).state.isStale = work.state.isStale := by
  rw [pushToRecovery]
  split
  · rfl
  · exact isStale_recordFailure now

theorem effects_setFeedState (new : FeedState) (ts : Int64) :
    ∃ more, (setFeedState new ts work).effects = work.effects ++ more := by
  rw [setFeedState]
  split
  · exact ⟨[], (List.append_nil _).symm⟩
  · exact ⟨_, rfl⟩

private theorem effects_finishRecovery (outcome : RecoveryOutcome) (now : Int64) :
    ∃ more, (finishRecovery outcome now work).effects = work.effects ++ more := by
  rw [finishRecovery]
  obtain ⟨more, grown⟩ := @effects_setFeedState ((work.update fun s => { s with
    circuit := s.circuit.recordSuccess, bboValidator := s.bboValidator.clear }).emit
      (.announce (.bookRecovered outcome.snapshotId) now)) .live now
  exact ⟨_, grown.trans (List.append_assoc ..)⟩

/-- A move only adds effects. -/
theorem Move.effects_grow {next : Work SymbolState Effect} (move : Move input work next) :
    ∃ more, next.effects = work.effects ++ more := by
  cases move with
  | feed ts reason => exact effects_setFeedState _ ts
  | recovered now stale fetched succeeded => exact effects_finishRecovery _ now
  | gap | stale | fetch | compare => exact ⟨_, rfl⟩
  | replayed | check | failure | compared | push | clear | seed | apply | skip =>
    exact ⟨[], (List.append_nil _).symm⟩

private theorem moves_recordFailure (moves : Moves input start work) {now : Int64}
    (clock : input.clock? = some now) : Moves input start (recordFailure now work).2 := by
  have failed := moves.tail (.failure work clock)
  simp only [recordFailure]
  split
  · exact failed.tail (.feed _ now .degraded)
  · exact failed

private theorem moves_pushToRecovery (moves : Moves input start work) {bd : BookDelta} {now : Int64}
    (received : input.delta? = some bd) (clock : input.clock? = some now) (encodedLen : ℕ)
    (recvTs : Int64) : Moves input start (pushToRecovery bd encodedLen recvTs now work) := by
  have pushed := moves.tail (.push work recvTs encodedLen received)
  rw [pushToRecovery]
  generalize work.state.recoveryBuf.push bd recvTs encodedLen = result at pushed ⊢
  obtain ⟨answer, recoveryBuf⟩ := result
  cases answer with
  | accepted => exact pushed
  | overflow reason => exact moves_recordFailure (pushed.tail (.clear _)) clock

/-- An attempt is made for a stale book while the circuit is closed. -/
theorem moves_attempt (moves : Moves input start work) {now : Int64}
    {fetched : Option BookSnapshot} (stale : work.state.isStale)
    (closed : work.state.circuit.openUntil = none) (clock : input.clock? = some now)
    (answer : input.recoverySnapshot? = fetched) :
    Moves input start (attempt now fetched work).2 := by
  have recovering := moves.tail (.feed work now (.recovering stale))
  have asked := recovering.tail
    (.fetch _ ((isStale_setFeedState ..).trans stale) (by rwa [circuit_setFeedState]) clock)
  have stillStale : ((setFeedState .recovering now work).emit (.fetchSnapshot now)).state.isStale :=
    (isStale_setFeedState ..).trans stale
  simp only [attempt]
  generalize (setFeedState .recovering now work).emit (.fetchSnapshot now) = work
    at asked stillStale ⊢
  cases fetched with
  | none => exact moves_recordFailure asked clock
  | some snapshot =>
    simp only
    cases result : (work.state.recovery snapshot).result with
    | ok outcome => exact asked.tail (.recovered work now stillStale answer result)
    | error e =>
      exact moves_recordFailure (asked.tail (.replayed work stillStale answer result)) clock

/-- A failed replay leaves the stale flag as it was. -/
theorem isStale_withRecovery {state : SymbolState} {snapshot : BookSnapshot} {e : RecoveryError}
    (failed : (state.recovery snapshot).result = .error e) :
    (state.withRecovery snapshot).isStale = state.isStale := by
  have recovers := applySnapshot_recovers spot_ordered snapshot state.book state.validator
    state.recoveryBuf
  by_cases complete : (scanFrom spotPosition snapshot.updateId
      (pastSnapshot snapshot.updateId state.recoveryBuf.events)).2 = []
  · obtain ⟨⟨outcome, succeeded⟩, -⟩ := recovers.succeeds complete
    rw [recovery, applySpotSnapshot, succeeded] at failed
    cases failed
  · exact (recovers.fails complete).2.1

/-- A failed attempt leaves the book stale. -/
theorem isStale_attempt {now : Int64} {fetched : Option BookSnapshot} (stale : work.state.isStale)
    (failed : (attempt now fetched work).1 = true) :
    (attempt now fetched work).2.state.isStale := by
  have stillStale : ((setFeedState .recovering now work).emit (.fetchSnapshot now)).state.isStale :=
    (isStale_setFeedState ..).trans stale
  simp only [attempt] at failed ⊢
  generalize (setFeedState .recovering now work).emit (.fetchSnapshot now) = work
    at failed stillStale ⊢
  cases fetched with
  | none => exact (isStale_recordFailure now).trans stillStale
  | some snapshot =>
    simp only at failed ⊢
    cases result : (work.state.recovery snapshot).result with
    | ok outcome => simp only [result, Bool.false_eq_true] at failed
    | error e =>
      exact (isStale_recordFailure now).trans ((isStale_withRecovery result).trans stillStale)

theorem openUntil_of_check {breaker : CircuitBreaker} {now : Int64}
    (closed : (breaker.check now).2 = .closed) : (breaker.check now).1.openUntil = none := by
  cases limit : breaker.openUntil with
  | none => rw [CircuitBreaker.check_of_closed limit, limit]
  | some limit' =>
    by_cases early : now < limit'
    · rw [CircuitBreaker.check_of_open limit early] at closed
      cases closed
    · rw [CircuitBreaker.check_of_expired limit (Int64.not_lt.mp early)]
      rfl

private theorem moves_onGap (moves : Moves input start work) {bd : BookDelta} {now : Int64}
    {fetched : Option BookSnapshot} (received : input.delta? = some bd)
    (clock : input.clock? = some now) (answer : input.recoverySnapshot? = fetched)
    (expected actual : UInt64) (encodedLen : ℕ) (recvTs : Int64) :
    Moves input start (onGap bd expected actual encodedLen recvTs now fetched work) := by
  have gap := moves.tail (.gap work expected actual recvTs)
  have marked := gap.tail (.stale _ .sequenceGap recvTs)
  have buffered := moves_pushToRecovery marked received clock encodedLen recvTs
  have stale : (pushToRecovery bd encodedLen recvTs now (markStale .sequenceGap recvTs
      (work.emit (.announce (.gapDetected expected actual) recvTs)))).state.isStale :=
    isStale_pushToRecovery ..
  simp only [onGap]
  generalize pushToRecovery bd encodedLen recvTs now _ = work at buffered stale ⊢
  have checked := buffered.tail (.check work clock)
  cases found : (work.state.circuit.check now).2 with
  | opened limit => exact checked.tail (.feed _ now .degraded)
  | closed =>
    have closed := openUntil_of_check found
    have tried := moves_attempt checked stale closed clock answer
    have leftStale := @isStale_attempt
      (work.update ({ · with circuit := (work.state.circuit.check now).1 })) now fetched stale
    simp only
    generalize attempt now fetched _ = result at tried leftStale ⊢
    obtain ⟨failed, work⟩ := result
    cases failed with
    | true => exact tried.tail (.feed _ now (.stale (leftStale rfl)))
    | false => exact tried

private theorem moves_onDelta (moves : Moves input start work) {bd : BookDelta} {now : Int64}
    {fetched : Option BookSnapshot} (received : input.delta? = some bd)
    (clock : input.clock? = some now) (answer : input.recoverySnapshot? = fetched)
    (encodedLen : ℕ) (recvTs : Int64) :
    Moves input start (onDelta bd encodedLen recvTs now fetched work) := by
  have seeded : Moves input start (seed bd work) := by
    rw [seed]
    split
    · rename_i fresh
      exact moves.tail (.seed work received fresh)
    · exact moves
  simp only [onDelta]
  generalize seed bd work = work at seeded ⊢
  cases result : (work.state.validation bd).1 with
  | apply =>
    have applied := seeded.tail (.apply work received result)
    simp only
    split
    · rename_i connecting
      exact applied.tail (.feed _ recvTs (.connected connecting))
    · exact applied
  | discard => exact seeded.tail (.skip work received (by rw [result]; simp))
  | buffering =>
    have skipped := seeded.tail (.skip work received (by rw [result]; simp))
    exact moves_pushToRecovery skipped received clock encodedLen recvTs
  | gap expected actual lastValid =>
    have skipped := seeded.tail (.skip work received (by rw [result]; simp))
    exact moves_onGap skipped received clock answer expected actual encodedLen recvTs

private theorem moves_onBestBidOffer (moves : Moves input start work)
    (bidPrice askPrice recvTs : Int64) :
    Moves input start (onBestBidOffer bidPrice askPrice recvTs work) := by
  simp only [onBestBidOffer]
  split
  · exact moves.tail (.compared work _)
  generalize work.state.bboValidator.check _ = result
  obtain ⟨bboValidator, result⟩ := result
  have checked := moves.tail (.compared work bboValidator)
  cases result with
  | ok => exact checked
  | degrade mismatchNs => exact checked.tail (.feed _ recvTs .degraded)
  | markStale mismatchNs =>
    have cleared := checked.tail (.compared _ bboValidator.clear)
    exact (cleared.tail (.stale _ .bboMismatch recvTs)).tail (.feed _ recvTs (.stale rfl))

private theorem moves_onRetry (moves : Moves input start work) {now : Int64}
    {fetched : Option BookSnapshot} (stale : work.state.isStale) (clock : input.clock? = some now)
    (answer : input.recoverySnapshot? = fetched) :
    Moves input start (onRetry now fetched work) := by
  have checked := moves.tail (.check work clock)
  simp only [onRetry]
  cases found : (work.state.circuit.check now).2 with
  | opened limit => exact checked
  | closed => exact moves_attempt checked stale (openUntil_of_check found) clock answer

private theorem moves_onValidate (moves : Moves input start work) (now : Int64)
    (fetched : Option BookSnapshot) : Moves input start (onValidate now fetched work) := by
  have asked := moves.tail (.compare work now)
  simp only [onValidate]
  cases fetched with
  | none => exact asked
  | some snapshot =>
    simp only
    split
    · exact asked
    · exact (asked.tail (.stale _ .snapshotIncompatible now)).tail (.feed _ now (.stale rfl))

/-- Every input is handled in moves. -/
theorem moves_handle (input : SymbolInput) (work : Work SymbolState Effect) :
    Moves input work (handle input work) := by
  cases input with
  | delta bd encodedLen recvTs now fetched =>
    exact moves_onDelta .refl rfl rfl rfl encodedLen recvTs
  | bestBidOffer bidPrice askPrice recvTs =>
    exact moves_onBestBidOffer .refl bidPrice askPrice recvTs
  | retry now fetched =>
    rw [handle]
    split
    · rename_i stale
      exact moves_onRetry .refl stale rfl rfl
    · exact .refl
  | validate now fetched =>
    rw [handle]
    split
    · exact moves_onValidate .refl now fetched
    · exact .refl

end SymbolState

end TradingConnectivity.Shard
