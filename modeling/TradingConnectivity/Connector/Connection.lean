import TradingConnectivity.Adapter.ConnectionManager
import TradingConnectivity.Connector.Delivery
import TradingConnectivity.Normalize.SequenceNumbers

/-! # A connection of the connector

A connection hands every frame that its manager forwards to a normalizer and publishes the messages
at once. Its sequence counter and its buffer outlive the sessions of the manager.
-/

namespace TradingConnectivity.Connector

open ConnectorCore Normalize
open Adapter (ConnectionManager ManagerInput ManagerEffect)
open Publisher (OfferResult)

def spotSymbol (symbol : String) : Spot.SpotEvent → Option String
  | .bookTicker _ | .depthUpdate _ | .trade _ => some symbol
  | .unknown _ => none

def futuresSymbol (symbol : String) : Futures.FuturesEvent → Option String
  | .bookTicker _ | .depthUpdate _ | .aggTrade _ | .markPrice _ | .forceOrder _ => some symbol
  | .unknown _ => none

/-- A frame with its event, if it parses, and what its messages meet: the clock and the answer of
the publication. -/
structure Frame where
  symbol : String
  event : Option (Spot.SpotEvent ⊕ Futures.FuturesEvent)
  recvTs : Int64
  clock : NormalizedMessage → Int64
  offered : NormalizedMessage → OfferResult

/-- The symbol of an event of one of the streams. -/
def Frame.symbol? (frame : Frame) : Option String :=
  match frame.event with
  | some (.inl event) => spotSymbol frame.symbol event
  | some (.inr event) => futuresSymbol frame.symbol event
  | none => none

/-- What the task of a connection captures. -/
structure Task where
  ctx : NormalizeCtx
  imap : String → Option InstrumentDefinition

/-- The task of a connection ends when the normalizer panics. -/
structure Connection where
  manager : ConnectionManager
  seq : UInt64
  buf : List UInt8
  running : Bool

namespace Connection

def start (reconnectDelayMs : UInt64) : Connection :=
  ⟨.start reconnectDelayMs, 0, List.replicate 65536 0, true⟩

/-- The call that a frame leads to, if its instrument is known. -/
def call? (task : Task) (frame : Frame) : Option Call := do
  let event ← frame.event
  let symbol ← frame.symbol?
  let inst ← task.imap symbol
  return ⟨event, inst, task.ctx, frame.recvTs⟩

def publish (frame : Frame) (msg : NormalizedMessage) (work : Work Connection Delivery) :
    Work Connection Delivery :=
  let (delivery, buf) := publishOne msg (frame.clock msg) (frame.offered msg) work.state.buf
  (work.update ({ · with buf })).emit delivery

/-- What a call returns. -/
def onOutcome (frame : Frame) (outcome : Outcome) (work : Work Connection Delivery) :
    Work Connection Delivery :=
  match outcome with
  | .error .panicked => work.update ({ · with running := false })
  | .error (.returned _) => work
  | .ok msgs => msgs.foldl (fun work msg => publish frame msg work) work

def onFrame (task : Task) (frame : Frame) (work : Work Connection Delivery) :
    Work Connection Delivery :=
  match call? task frame with
  | none => work
  | some call =>
    let (outcome, seq) := call.perform work.state.seq
    onOutcome frame outcome (work.update ({ · with seq }))

/-- What the manager does beside forwarding frames does not concern the messages. -/
def perform (task : Task) (work : Work Connection Delivery) :
    ManagerEffect Frame → Work Connection Delivery
  | .onFrame frame _ => onFrame task frame work
  | _ => work

def handle (task : Task) (input : ManagerInput Frame) (work : Work Connection Delivery) :
    Work Connection Delivery :=
  if work.state.running then
    let managed := ConnectionManager.handle input ⟨work.state.manager, []⟩
    managed.effects.foldl (perform task) (work.update ({ · with manager := managed.state }))
  else work

/-- A connection as a machine; its answers are what became of its messages. -/
def machine (task : Task) : Machine Connection (ManagerInput Frame) (List Delivery) :=
  .ofHandler (handle task)

/-- The messages that a frame leads to, as they are stamped, and the counter after it. -/
def make (task : Task) (frame : Frame) (seq : UInt64) : List NormalizedMessage × UInt64 :=
  match call? task frame with
  | none => ([], seq)
  | some call =>
    let (outcome, next) := call.perform seq
    ((produced outcome).map fun msg => msg.withPublishTs (frame.clock msg), next)

def makeAll (task : Task) : List Frame → UInt64 → List NormalizedMessage × UInt64
  | [], seq => ([], seq)
  | frame :: rest, seq =>
    let first := make task frame seq
    let later := makeAll task rest first.2
    (first.1 ++ later.1, later.2)

/-- The frames that the manager forwards on an input. -/
def frames (connection : Connection) (input : ManagerInput Frame) : List Frame :=
  if connection.running then
    (ConnectionManager.handle input ⟨connection.manager, []⟩).effects.filterMap ManagerEffect.frame?
  else []

/-- The messages that an input leads to. -/
def made (task : Task) (connection : Connection) (input : ManagerInput Frame) :
    List NormalizedMessage := (makeAll task (connection.frames input) connection.seq).1

end Connection

end TradingConnectivity.Connector
