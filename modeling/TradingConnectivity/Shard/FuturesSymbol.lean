import TradingConnectivity.Shard.SpotSymbol

/-! # One symbol of a futures shard

A futures symbol has no retry on a tick: the depth event that reveals a gap makes the only attempt
at a recovery, and nothing ever fetches a first snapshot. So a symbol is waiting for its first
snapshot, or in sequence, or stale, and it can only leave the second phase, for the third
(`gaps_balance`, `waiting_forever`).
-/

namespace TradingConnectivity.Shard

open ConnectorCore (InstrumentDefinition FeedState)
open MarketData

/-- What the handling of a depth event does outside the state of its symbol. -/
inductive FuturesEffect
  | announce (control : Control) (ts : Int64)
  | fetchSnapshot (now : Int64)
  /-- The depth event is encoded again and offered. -/
  | offerDelta
deriving DecidableEq, Repr

/-- Every stateful component that belongs to one symbol. -/
structure FuturesSymbolState where
  inst : InstrumentDefinition
  book : OrderBook
  validator : FuturesSequenceValidator
  recoveryBuf : RecoveryBuffer
  circuit : CircuitBreaker
  feedState : FeedState

/-- A depth event; `now` is the time of its frame, `fetched` what a snapshot request returns. -/
structure FuturesInput where
  bd : BookDelta
  encodedSize : ℕ
  now : Int64
  fetched : Option BookSnapshot
deriving DecidableEq, Repr

namespace FuturesSymbolState

def new (inst : InstrumentDefinition) : FuturesSymbolState where
  inst := inst
  book := .new
  validator := .new
  recoveryBuf := .new
  circuit := defaultCircuit
  feedState := .connecting

def isStale (state : FuturesSymbolState) : Bool := state.book.stale

/-! ### The handler -/

/-- The reason that is announced when the buffer of a stale book overflows. -/
def overflowReason : OverflowReason → BookStaleReason
  | .age => .staleTimeout
  | .eventCount | .byteSize => .bufferOverflow

/-- A stale book collects depth events; an overflow empties the buffer and is announced. -/
def onStale (input : FuturesInput) (work : Work FuturesSymbolState FuturesEffect) :
    Work FuturesSymbolState FuturesEffect :=
  match work.state.recoveryBuf.push input.bd input.now input.encodedSize with
  | (.accepted, recoveryBuf) => work.update ({ · with recoveryBuf })
  | (.overflow reason, recoveryBuf) =>
    (work.update ({ · with recoveryBuf := recoveryBuf.clear })).emit
      (.announce (.bookStale (overflowReason reason)) input.now)

/-- Before the first snapshot an overflow is not announced. -/
def onAwaiting (input : FuturesInput) (work : Work FuturesSymbolState FuturesEffect) :
    Work FuturesSymbolState FuturesEffect :=
  match work.state.recoveryBuf.push input.bd input.now input.encodedSize with
  | (.accepted, recoveryBuf) => work.update ({ · with recoveryBuf })
  | (.overflow _, recoveryBuf) => work.update ({ · with recoveryBuf := recoveryBuf.clear })

def recordFailure (now : Int64) (work : Work FuturesSymbolState FuturesEffect) :
    Work FuturesSymbolState FuturesEffect :=
  work.update fun s => { s with circuit := (s.circuit.recordFailure now).1 }

/-- The outcome of applying a snapshot to the components of a symbol. -/
def recovery (state : FuturesSymbolState) (snapshot : BookSnapshot) :
    Recovery FuturesSequenceValidator :=
  applyFuturesSnapshot snapshot state.book state.validator state.recoveryBuf

/-- The components after a snapshot was applied, with or without success. -/
def withRecovery (state : FuturesSymbolState) (snapshot : BookSnapshot) : FuturesSymbolState :=
  { state with
    book := (state.recovery snapshot).book
    validator := (state.recovery snapshot).validator
    recoveryBuf := (state.recovery snapshot).buffer }

/-- One attempt at recovery. -/
def attempt (now : Int64) (fetched : Option BookSnapshot)
    (work : Work FuturesSymbolState FuturesEffect) : Work FuturesSymbolState FuturesEffect :=
  let work := work.emit (.fetchSnapshot now)
  match fetched with
  | some snapshot =>
    let applied := work.update (·.withRecovery snapshot)
    match (work.state.recovery snapshot).result with
    | .ok outcome =>
      (applied.update fun s =>
        { s with circuit := s.circuit.recordSuccess, feedState := .live }).emit
          (.announce (.bookRecovered outcome.snapshotId) now)
    | .error _ => recordFailure now applied
  | none => recordFailure now work

/-- A gap makes the book stale and starts a recovery, unless the circuit is open. The depth event
that revealed the gap is not buffered. -/
def onGap (expected actual : UInt64) (now : Int64) (fetched : Option BookSnapshot)
    (work : Work FuturesSymbolState FuturesEffect) : Work FuturesSymbolState FuturesEffect :=
  let work := work.update fun s => { s with book := s.book.markStale .sequenceGap }
  let work := work.emit (.announce (.gapDetected expected actual) now)
  let work := work.emit (.announce (.bookStale .sequenceGap) now)
  let work := work.update ({ · with feedState := .recovering })
  let (circuit, found) := work.state.circuit.check now
  let work := work.update ({ · with circuit })
  match found with
  | .opened _ => recordFailure now work
  | .closed => attempt now fetched work

/-- What the validator of a symbol makes of a depth event. -/
def validation (state : FuturesSymbolState) (bd : BookDelta) :
    ValidateResult × FuturesSequenceValidator :=
  state.validator.validate bd.firstUpdateId bd.finalUpdateId bd.prevUpdateId

/-- A book that is not stale follows its stream. -/
def onFresh (input : FuturesInput) (work : Work FuturesSymbolState FuturesEffect) :
    Work FuturesSymbolState FuturesEffect :=
  let (result, validator) := work.state.validation input.bd
  let work := work.update ({ · with validator })
  match result with
  | .apply => (work.update fun s => { s with book := s.book.applyDelta input.bd }).emit .offerDelta
  | .discard => work
  | .buffering => work.update fun s => { s with
      recoveryBuf := (s.recoveryBuf.push input.bd input.now input.encodedSize).2 }
  | .gap expected actual _ => onGap expected actual input.now input.fetched work

/-- The loop goes on to the next message at once if the depth event only waits. -/
def waits (state : FuturesSymbolState) : Bool :=
  state.isStale || state.validator.state == .awaitingSnapshot

def handle (input : FuturesInput) (work : Work FuturesSymbolState FuturesEffect) :
    Work FuturesSymbolState FuturesEffect :=
  if work.state.isStale then onStale input work
  else if work.state.validator.state = .awaitingSnapshot then onAwaiting input work
  else onFresh input work

/-- One symbol as a machine. -/
def machine : Machine FuturesSymbolState FuturesInput (List FuturesEffect) := .ofHandler handle

end FuturesSymbolState

end TradingConnectivity.Shard
