import TradingConnectivity.Normalize.Spot
import TradingConnectivity.Publisher.Heartbeat
import TradingConnectivity.Shard.Outbox
import TradingConnectivity.Shard.SymbolTable

/-! # A spot shard

The loop of a shard handles the frames of the stream, a tick that retries the recovery of stale
books and beats the heart, and a tick that compares live books with snapshots. All symbols share one
outbox. A frame that does not parse is skipped and left out here.
-/

namespace TradingConnectivity.Shard

open ConnectorCore Normalize
open Publisher (Heartbeater)

/-- The engine of a spot shard. -/
abbrev ShardEngine := SymbolTable SymbolState

/-- The engine of the given instruments. -/
def ShardEngine.ofInsts (shardId : UInt32) (insts : List InstrumentDefinition) : ShardEngine :=
  SymbolTable.ofInsts .new shardId insts

/-- The state of the loop; it ends when the normalizer panics. -/
structure SpotShard where
  engine : ShardEngine
  outbox : Outbox
  heartbeater : Heartbeater
  running : Bool

/-- The input of the loop, with what the snapshot requests return and when the clock is read. -/
inductive ShardInput
  | frame (symbol : String) (event : Spot.SpotEvent) (recvTs now : Int64)
      (fetched : Option MarketData.BookSnapshot)
  | tick (now : Int64) (fetched : String → Option MarketData.BookSnapshot)
  | validationTick (now : String → Int64) (fetched : String → Option MarketData.BookSnapshot)

namespace SpotShard

/-- A shard as the loop starts it. -/
def start (engine : ShardEngine) : SpotShard where
  engine := engine
  outbox := ⟨0, List.replicate (8 * 1024) 0⟩
  heartbeater := .new
  running := true

def ctx (shard : SpotShard) : NormalizeCtx := ⟨.binanceSpot, .spot, 0, shard.engine.shardId⟩

/-- The outbox as a part of the shard. -/
def withOutbox (change : Work Outbox (List UInt8) → Work Outbox (List UInt8))
    (work : Work SpotShard (List UInt8)) : Work SpotShard (List UInt8) :=
  let done := change ⟨work.state.outbox, work.effects⟩
  ⟨{ work.state with outbox := done.state }, done.effects⟩

/-- A symbol handles its input, and the shard performs what it announces. -/
def handleSymbol (symbol : String) (input : SymbolInput) (work : Work SpotShard (List UInt8)) :
    Work SpotShard (List UInt8) :=
  match work.state.engine.get? symbol with
  | none => work
  | some state =>
    let handled := SymbolState.handle input ⟨state, []⟩
    withOutbox (Outbox.performAll work.state.ctx state.inst handled.effects)
      (work.update fun s => { s with engine := s.engine.set symbol handled.state })

/-- What a message means to its symbol, if anything. -/
def symbolInput (msg : NormalizedMessage) (encodedLen : ℕ) (recvTs now : Int64)
    (fetched : Option MarketData.BookSnapshot) : Option SymbolInput :=
  match msg with
  | .bookDelta bd =>
    some (.delta ⟨bd.firstUpdateId, bd.finalUpdateId, bd.prevUpdateId, bd.bids, bd.asks⟩ encodedLen
      recvTs now fetched)
  | .bestBidOffer b => some (.bestBidOffer b.bidPrice b.askPrice recvTs)
  | _ => none

/-- The message of a frame is encoded before the symbol handles it and offered afterwards. By then
the announcements have been encoded into the same buffer. -/
def onMessage (symbol : String) (msg : NormalizedMessage) (recvTs now : Int64)
    (fetched : Option MarketData.BookSnapshot) (work : Work SpotShard (List UInt8)) :
    Work SpotShard (List UInt8) :=
  match msg.encodeInto work.state.outbox.encodeBuf with
  | (.error _, encodeBuf) =>
    work.update fun s => { s with outbox := { s.outbox with encodeBuf } }
  | (.ok encodedLen, encodeBuf) =>
    let work := work.update fun s => { s with outbox := { s.outbox with encodeBuf } }
    let work := match symbolInput msg encodedLen recvTs now fetched with
      | some input => handleSymbol symbol input work
      | none => work
    work.emit (work.state.outbox.encodeBuf.take encodedLen)

/-- The symbol of an event of one of the streams of the shard. -/
def symbolFromEvent (symbol : String) : Spot.SpotEvent → Option String
  | .bookTicker _ | .depthUpdate _ | .trade _ => some symbol
  | .unknown _ => none

/-- Events of other streams and of other symbols are ignored. -/
def onFrame (symbol : String) (event : Spot.SpotEvent) (recvTs now : Int64)
    (fetched : Option MarketData.BookSnapshot) (work : Work SpotShard (List UInt8)) :
    Work SpotShard (List UInt8) :=
  match (symbolFromEvent symbol event).bind work.state.engine.get? with
  | none => work
  | some state =>
    let (result, seq) := (Spot.normalizeSpotEvent event state.inst work.state.ctx recvTs).run.run
      work.state.outbox.seq
    let work := work.update fun s => { s with outbox := { s.outbox with seq } }
    match result with
    | .error .panicked => work.update ({ · with running := false })
    | .error (.returned _) | .ok none => work
    | .ok (some msg) => onMessage symbol msg recvTs now fetched work

/-- A heartbeat concerns the whole shard. -/
def beat (now : Int64) (work : Work SpotShard (List UInt8)) : Work SpotShard (List UInt8) :=
  if work.state.heartbeater.isDue now then
    (withOutbox (Outbox.offerNext fun seq =>
      .heartbeat ⟨shardHdr .heartbeat work.state.ctx seq now⟩) work).update
        fun s => { s with heartbeater := s.heartbeater.recordBeat now }
  else work

/-- The loop first collects the stale symbols; as a symbol is stale or not whatever happens to the
others, each may as well be asked when it is its turn. -/
def onTick (now : Int64) (fetched : String → Option MarketData.BookSnapshot)
    (work : Work SpotShard (List UInt8)) : Work SpotShard (List UInt8) :=
  beat now (work.state.engine.symbols.keys.foldl
    (fun work symbol => handleSymbol symbol (.retry now (fetched symbol)) work) work)

def onValidationTick (now : String → Int64) (fetched : String → Option MarketData.BookSnapshot)
    (work : Work SpotShard (List UInt8)) : Work SpotShard (List UInt8) :=
  work.state.engine.symbols.keys.foldl
    (fun work symbol => handleSymbol symbol (.validate (now symbol) (fetched symbol)) work) work

def handle (input : ShardInput) (work : Work SpotShard (List UInt8)) :
    Work SpotShard (List UInt8) :=
  if work.state.running then
    match input with
    | .frame symbol event recvTs now fetched => onFrame symbol event recvTs now fetched work
    | .tick now fetched => onTick now fetched work
    | .validationTick now fetched => onValidationTick now fetched work
  else work

/-- A shard as a machine; its answers are the fragments it offers. -/
def machine : Machine SpotShard ShardInput (List (List UInt8)) := .ofHandler handle

end SpotShard

end TradingConnectivity.Shard
