import TradingConnectivity.Normalize.Futures
import TradingConnectivity.Publisher.Heartbeat
import TradingConnectivity.Shard.FuturesSymbol
import TradingConnectivity.Shard.Outbox
import TradingConnectivity.Shard.SymbolTable

/-! # A futures shard

The loop of a futures shard handles the frames of the stream and nothing else. Whatever the messages
of a frame lead to is encoded and offered at once, and after a message that the loop has finished
with the heartbeat is checked. The counters for display are left out, and so is a frame that does
not parse.
-/

namespace TradingConnectivity.Shard

open ConnectorCore Normalize
open Publisher (Heartbeater)

/-- The engine of a futures shard. -/
abbrev FuturesShardEngine := SymbolTable FuturesSymbolState

/-- The engine of the given instruments. -/
def FuturesShardEngine.ofInsts (shardId : UInt32) (insts : List InstrumentDefinition) :
    FuturesShardEngine := SymbolTable.ofInsts .new shardId insts

/-- The state of the loop; it ends when the normalizer panics. -/
structure FuturesShard where
  engine : FuturesShardEngine
  outbox : Outbox
  heartbeater : Heartbeater
  running : Bool

/-- A frame with what a snapshot request returns, and the clock after each of its messages. -/
structure FuturesFrame where
  symbol : String
  event : Futures.FuturesEvent
  recvTs : Int64
  fetched : Option MarketData.BookSnapshot
  clock : NormalizedMessage → Int64

namespace FuturesShard

def ctx (shard : FuturesShard) : NormalizeCtx :=
  ⟨.binanceFutures, .usdmFutures, 0, shard.engine.shardId⟩

/-- The outbox as a part of the shard. -/
def withOutbox (change : Work Outbox (List UInt8) → Work Outbox (List UInt8))
    (work : Work FuturesShard (List UInt8)) : Work FuturesShard (List UInt8) :=
  let done := change ⟨work.state.outbox, work.effects⟩
  ⟨{ work.state with outbox := done.state }, done.effects⟩

/-- The feed status of the shard, with no symbol of its own. -/
def setFeedState (state : FeedState) (ts : Int64) (work : Work FuturesShard (List UInt8)) :
    Work FuturesShard (List UInt8) :=
  withOutbox (Outbox.offerNext fun seq =>
    .feedStatus ⟨shardHdr .feedStatus work.state.ctx seq ts, state⟩) work

/-- A shard as the loop starts it; it announces that it is connecting. -/
def start (engine : FuturesShardEngine) (now : Int64) : Work FuturesShard (List UInt8) :=
  setFeedState .connecting now
    ⟨⟨engine, ⟨0, List.replicate 64000 0⟩, .new, true⟩, []⟩

/-- What an effect of a symbol does to the outbox. -/
def perform (ctx : NormalizeCtx) (inst : InstrumentDefinition) (bd : BookDelta)
    (effect : FuturesEffect) (work : Work Outbox (List UInt8)) : Work Outbox (List UInt8) :=
  match effect with
  | .announce control ts => Outbox.perform ctx inst (.announce control ts) work
  | .fetchSnapshot _ => work
  | .offerDelta => Outbox.offer (.bookDelta bd) work

/-- The heartbeat check after a message. -/
def beat (now : Int64) (work : Work FuturesShard (List UInt8)) : Work FuturesShard (List UInt8) :=
  if work.state.heartbeater.isDue now then
    (withOutbox (Outbox.offerNext fun seq =>
      .heartbeat ⟨shardHdr .heartbeat work.state.ctx seq now⟩) work).update
        fun s => { s with heartbeater := s.heartbeater.recordBeat now }
  else work

/-- What a book delta means to its symbol. -/
def depthInput (frame : FuturesFrame) (bd : BookDelta) (encodedSize : ℕ) : FuturesInput :=
  ⟨⟨bd.firstUpdateId, bd.finalUpdateId, bd.prevUpdateId, bd.bids, bd.asks⟩, encodedSize,
    frame.recvTs, frame.fetched⟩

/-- A depth event is encoded for its size and handled by its symbol. If it only waits there, the
heartbeat is not checked. -/
def onBookDelta (frame : FuturesFrame) (bd : BookDelta) (work : Work FuturesShard (List UInt8)) :
    Work FuturesShard (List UInt8) :=
  match work.state.engine.get? frame.symbol with
  | none => work
  | some state =>
    let (result, encodeBuf) := (NormalizedMessage.bookDelta bd).encodeInto
      work.state.outbox.encodeBuf
    let handled := FuturesSymbolState.handle (depthInput frame bd (result.toOption.getD 0))
      ⟨state, []⟩
    let work := work.update fun s => { s with
      engine := s.engine.set frame.symbol handled.state
      outbox := { s.outbox with encodeBuf } }
    let work := withOutbox (fun out => handled.effects.foldl
      (fun out effect => perform work.state.ctx state.inst bd effect out) out) work
    if state.waits then work else beat (frame.clock (.bookDelta bd)) work

/-- One normalized message of a frame. -/
def dispatch (frame : FuturesFrame) (msg : NormalizedMessage)
    (work : Work FuturesShard (List UInt8)) : Work FuturesShard (List UInt8) :=
  match msg with
  | .bookDelta bd => onBookDelta frame bd work
  | .bestBidOffer _ | .trade _ | .markPrice _ | .fundingRate _ | .liquidation _ =>
    beat (frame.clock msg) (withOutbox (Outbox.offer msg) work)
  | _ => beat (frame.clock msg) work

/-- The symbol of an event of one of the streams of the shard. -/
def symbolFromFuturesEvent (symbol : String) : Futures.FuturesEvent → Option String
  | .bookTicker _ | .depthUpdate _ | .aggTrade _ | .markPrice _ | .forceOrder _ => some symbol
  | .unknown _ => none

/-- Events of other streams and of other symbols are ignored. -/
def onFrame (frame : FuturesFrame) (work : Work FuturesShard (List UInt8)) :
    Work FuturesShard (List UInt8) :=
  match (symbolFromFuturesEvent frame.symbol frame.event).bind work.state.engine.get? with
  | none => work
  | some state =>
    let (result, seq) := (Futures.normalizeFuturesEvent frame.event state.inst work.state.ctx
      frame.recvTs).run.run work.state.outbox.seq
    let work := work.update fun s => { s with outbox := { s.outbox with seq } }
    match result with
    | .error .panicked => work.update ({ · with running := false })
    | .error (.returned _) => work
    | .ok msgs => msgs.foldl (fun work msg => dispatch frame msg work) work

def handle (frame : FuturesFrame) (work : Work FuturesShard (List UInt8)) :
    Work FuturesShard (List UInt8) :=
  if work.state.running then onFrame frame work else work

/-- A shard as a machine; its answers are the fragments it offers. -/
def machine : Machine FuturesShard FuturesFrame (List (List UInt8)) := .ofHandler handle

/-- Everything that a shard offers from its start on. -/
def fragments (engine : FuturesShardEngine) (now : Int64) (frames : List FuturesFrame) :
    List (List UInt8) :=
  (start engine now).effects ++ machine.effects (start engine now).state frames

end FuturesShard

end TradingConnectivity.Shard
