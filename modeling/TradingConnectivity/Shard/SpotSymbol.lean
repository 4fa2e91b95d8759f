import TradingConnectivity.ConnectorCore.Message
import TradingConnectivity.Machine.Work
import TradingConnectivity.MarketData.BboValidator
import TradingConnectivity.MarketData.CircuitBreaker
import TradingConnectivity.MarketData.LastWrite
import TradingConnectivity.MarketData.Recovery
import TradingConnectivity.MarketData.SnapshotCheck

/-! # One symbol of a spot shard

A shard keeps for every symbol the book, the validators, the recovery buffer, the circuit breaker
and the feed state. Its loop handles depth events, top-of-book events, a tick that retries the
recovery of a stale book and a periodic comparison with a fetched snapshot. The handlers announce
what happens to the book in control messages. They differ from the loop only in that the result of a
fetch and the time of the clock come with the input; counters for display are left out.
-/

namespace TradingConnectivity.Shard

open ConnectorCore (InstrumentDefinition FeedState)
open MarketData

/-- The body of a control message. -/
inductive Control
  | gapDetected (expectedUpdateId receivedUpdateId : UInt64)
  | bookStale (reason : BookStaleReason)
  | bookRecovered (snapshotUpdateId : UInt64)
  | feedStatus (state : FeedState)
deriving DecidableEq, Repr

/-- What the handling of an input does outside the state of its symbol. -/
inductive Effect
  | announce (control : Control) (ts : Int64)
  /-- A snapshot is requested for a recovery. -/
  | fetchSnapshot (now : Int64)
  /-- A snapshot is requested for the periodic comparison. -/
  | fetchComparison (now : Int64)
deriving DecidableEq, Repr

/-- Every stateful component that belongs to one symbol. -/
structure SymbolState where
  inst : InstrumentDefinition
  book : OrderBook
  validator : SequenceValidator
  recoveryBuf : RecoveryBuffer
  circuit : CircuitBreaker
  bboValidator : BboValidator
  feedState : FeedState

/-- The circuit breaker with its default limits. -/
def defaultCircuit : CircuitBreaker := .withLimits 5 30000000000

/-- The top-of-book validator with its default thresholds. -/
def defaultBboValidator : BboValidator := .withThresholds 250000000 1000000000

/-- The default configuration of the periodic snapshot comparison. -/
def defaultSnapshotConfig : SnapshotValidatorConfig := ⟨5, 0, 0⟩

/-- The input of one symbol. `fetched` is what a snapshot request returns, if one is made. -/
inductive SymbolInput
  | delta (bd : BookDelta) (encodedLen : ℕ) (recvTs now : Int64) (fetched : Option BookSnapshot)
  | bestBidOffer (bidPrice askPrice recvTs : Int64)
  | retry (now : Int64) (fetched : Option BookSnapshot)
  | validate (now : Int64) (fetched : Option BookSnapshot)
deriving DecidableEq, Repr

namespace SymbolState

def new (inst : InstrumentDefinition) : SymbolState where
  inst := inst
  book := .new
  validator := .new
  recoveryBuf := .new
  circuit := defaultCircuit
  bboValidator := defaultBboValidator
  feedState := .connecting

def isStale (state : SymbolState) : Bool := state.book.stale

/-- The book has levels on both sides and is not stale. -/
def isLive (state : SymbolState) : Bool :=
  !state.isStale && !state.book.bids.isEmpty && !state.book.asks.isEmpty

/-! ### Parts of the handlers -/

/-- The feed status is announced when it changes. -/
def setFeedState (new : FeedState) (ts : Int64) (work : Work SymbolState Effect) :
    Work SymbolState Effect :=
  if work.state.feedState = new then work
  else (work.update ({ · with feedState := new })).emit (.announce (.feedStatus new) ts)

def markStale (reason : BookStaleReason) (ts : Int64) (work : Work SymbolState Effect) :
    Work SymbolState Effect :=
  (work.update fun s => { s with book := s.book.markStale reason }).emit
    (.announce (.bookStale reason) ts)

/-- A failure that opens the circuit degrades the feed. -/
def recordFailure (now : Int64) (work : Work SymbolState Effect) :
    Bool × Work SymbolState Effect :=
  let (circuit, opened) := work.state.circuit.recordFailure now
  let work := work.update ({ · with circuit })
  (opened, if opened then setFeedState .degraded now work else work)

/-- An overflow empties the buffer and counts as a failure of the recovery. -/
def pushToRecovery (bd : BookDelta) (encodedLen : ℕ) (recvTs now : Int64)
    (work : Work SymbolState Effect) : Work SymbolState Effect :=
  match work.state.recoveryBuf.push bd recvTs encodedLen with
  | (.accepted, recoveryBuf) => work.update ({ · with recoveryBuf })
  | (.overflow _, recoveryBuf) =>
    (recordFailure now (work.update ({ · with recoveryBuf := recoveryBuf.clear }))).2

/-- What follows a snapshot that was applied. -/
def finishRecovery (outcome : RecoveryOutcome) (now : Int64) (work : Work SymbolState Effect) :
    Work SymbolState Effect :=
  let work := work.update fun s =>
    { s with circuit := s.circuit.recordSuccess, bboValidator := s.bboValidator.clear }
  setFeedState .live now (work.emit (.announce (.bookRecovered outcome.snapshotId) now))

/-- The outcome of applying a snapshot to the components of a symbol. -/
def recovery (state : SymbolState) (snapshot : BookSnapshot) : Recovery SequenceValidator :=
  applySpotSnapshot snapshot state.book state.validator state.recoveryBuf

/-- The components after a snapshot was applied, with or without success. -/
def withRecovery (state : SymbolState) (snapshot : BookSnapshot) : SymbolState :=
  { state with
    book := (state.recovery snapshot).book
    validator := (state.recovery snapshot).validator
    recoveryBuf := (state.recovery snapshot).buffer }

/-- One attempt at recovery; the answer says whether a failure left the circuit closed. -/
def attempt (now : Int64) (fetched : Option BookSnapshot) (work : Work SymbolState Effect) :
    Bool × Work SymbolState Effect :=
  let work := (setFeedState .recovering now work).emit (.fetchSnapshot now)
  match fetched with
  | some snapshot =>
    let applied := work.update (·.withRecovery snapshot)
    match (work.state.recovery snapshot).result with
    | .ok outcome => (false, finishRecovery outcome now applied)
    | .error _ =>
      let (opened, work) := recordFailure now applied
      (!opened, work)
  | none =>
    let (opened, work) := recordFailure now work
    (!opened, work)

/-! ### The handlers -/

/-- A gap makes the book stale and starts a recovery, unless the circuit is open. -/
def onGap (bd : BookDelta) (expected actual : UInt64) (encodedLen : ℕ) (recvTs now : Int64)
    (fetched : Option BookSnapshot) (work : Work SymbolState Effect) : Work SymbolState Effect :=
  let work := work.emit (.announce (.gapDetected expected actual) recvTs)
  let work := markStale .sequenceGap recvTs work
  let work := pushToRecovery bd encodedLen recvTs now work
  let (circuit, found) := work.state.circuit.check now
  let work := work.update ({ · with circuit })
  match found with
  | .opened _ => setFeedState .degraded now work
  | .closed =>
    match attempt now fetched work with
    | (true, work) => setFeedState .stale now work
    | (false, work) => work

/-- The id a first depth event seeds the validator with. -/
def seedId (bd : BookDelta) : UInt64 := if bd.firstUpdateId = 0 then 0 else bd.firstUpdateId - 1

/-- The first depth event seeds the validator as a snapshot just before it would. -/
def seed (bd : BookDelta) (work : Work SymbolState Effect) : Work SymbolState Effect :=
  if work.state.validator.lastValidId = none then
    work.update fun s => { s with validator := s.validator.onSnapshot (seedId bd) }
  else work

/-- What the validator of a symbol makes of a depth event. -/
def validation (state : SymbolState) (bd : BookDelta) : ValidateResult × SequenceValidator :=
  state.validator.validate bd.firstUpdateId bd.finalUpdateId

def onDelta (bd : BookDelta) (encodedLen : ℕ) (recvTs now : Int64) (fetched : Option BookSnapshot)
    (work : Work SymbolState Effect) : Work SymbolState Effect :=
  let work := seed bd work
  let (result, validator) := work.state.validation bd
  let work := work.update ({ · with validator })
  match result with
  | .apply =>
    let wasConnecting := work.state.feedState = .connecting
    let work := work.update fun s => { s with book := s.book.applyDelta bd }
    if wasConnecting then setFeedState .live recvTs work else work
  | .discard => work
  | .buffering => pushToRecovery bd encodedLen recvTs now work
  | .gap expected actual _ => onGap bd expected actual encodedLen recvTs now fetched work

/-- The best prices are compared while the book is not stale. -/
def onBestBidOffer (bidPrice askPrice recvTs : Int64) (work : Work SymbolState Effect) :
    Work SymbolState Effect :=
  if work.state.isStale then
    work.update fun s => { s with bboValidator := s.bboValidator.clear }
  else
    let s := work.state
    let (bboValidator, result) := s.bboValidator.check
      ⟨recvTs, s.book.bestBid.map (·.price), s.book.bestAsk.map (·.price), bidPrice, askPrice⟩
    let work := work.update ({ · with bboValidator })
    match result with
    | .ok => work
    | .degrade _ => setFeedState .degraded recvTs work
    | .markStale _ =>
      let work := work.update fun s => { s with bboValidator := s.bboValidator.clear }
      setFeedState .stale recvTs (markStale .bboMismatch recvTs work)

/-- The retry of a stale book on a tick; a failure that leaves the circuit closed is not
announced. -/
def onRetry (now : Int64) (fetched : Option BookSnapshot) (work : Work SymbolState Effect) :
    Work SymbolState Effect :=
  let (circuit, found) := work.state.circuit.check now
  let work := work.update ({ · with circuit })
  match found with
  | .opened _ => work
  | .closed => (attempt now fetched work).2

/-- The periodic comparison of a live book with a snapshot. -/
def onValidate (now : Int64) (fetched : Option BookSnapshot) (work : Work SymbolState Effect) :
    Work SymbolState Effect :=
  let work := work.emit (.fetchComparison now)
  match fetched with
  | some snapshot =>
    match checkSnapshot work.state.book.bidLevels work.state.book.askLevels snapshot
        defaultSnapshotConfig with
    | .compatible => work
    | .incompatible _ _ _ => setFeedState .stale now (markStale .snapshotIncompatible now work)
  | none => work

/-- The handling of one input. A retry is for stale books only, a comparison for live ones. -/
def handle (input : SymbolInput) (work : Work SymbolState Effect) : Work SymbolState Effect :=
  match input with
  | .delta bd encodedLen recvTs now fetched => onDelta bd encodedLen recvTs now fetched work
  | .bestBidOffer bidPrice askPrice recvTs => onBestBidOffer bidPrice askPrice recvTs work
  | .retry now fetched => if work.state.isStale then onRetry now fetched work else work
  | .validate now fetched => if work.state.isLive then onValidate now fetched work else work

/-- One symbol as a machine. -/
def machine : Machine SymbolState SymbolInput (List Effect) := .ofHandler handle

end SymbolState

end TradingConnectivity.Shard
