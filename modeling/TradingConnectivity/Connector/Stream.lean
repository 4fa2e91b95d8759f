import TradingConnectivity.Connector.Account
import TradingConnectivity.Connector.OpenInterest
import TradingConnectivity.Machine.Family

/-! # The connector

The connections and the open interest poller run side by side and publish into one stream. A
subscriber tells the messages of a connection by their connection id, but for the open interest,
which says 0. Whatever the order in which the tasks run, and however often the sessions are lost and
begun again, the subscriber decodes messages that the connection has made, in their order
(`stream_decodes`), and there is a gap in their numbers exactly if something was lost
(`numbers_accounted`).
-/

namespace TradingConnectivity.Connector

open ConnectorCore
open Adapter (ManagerInput)

/-- Who publishes into the stream. -/
inductive Source
  | connection (id : UInt32)
  | poller
deriving DecidableEq

namespace Source

@[reducible] def State : Source → Type
  | connection _ => Connection
  | poller => OpenInterestPoller

@[reducible] def Input : Source → Type
  | connection _ => ManagerInput Frame
  | poller => Poll

/-- The counter of a source. -/
def counter : (source : Source) → source.State → UInt64
  | connection _, state => state.seq
  | poller, state => state.nextSeq

end Source

/-- What all connections of a connector have in common. -/
structure Settings where
  venueId : VenueId
  marketType : MarketType
  instanceId : UInt32
  imap : String → Option InstrumentDefinition
  reconnectDelayMs : UInt64

namespace Settings

variable (settings : Settings)

def task (id : UInt32) : Task :=
  ⟨⟨settings.venueId, settings.marketType, settings.instanceId, id⟩, settings.imap⟩

def start : (source : Source) → source.State
  | .connection _ => Connection.start settings.reconnectDelayMs
  | .poller => OpenInterestPoller.start

def member : (source : Source) → Machine source.State source.Input (List Delivery)
  | .connection id => Connection.machine (settings.task id)
  | .poller => OpenInterestPoller.machine

/-- The tasks of the connector, which take their steps in any order. The definitions of the
instruments are published before they start (`startup`). -/
def connector : Machine ((source : Source) → source.State) (Σ source : Source, source.Input)
    (List Delivery) := Machine.family settings.member

end Settings

/-- The messages of a source, as they say themselves. -/
def Source.sends : Source → NormalizedMessage → Bool
  | connection id, msg => msg.header.connectionId = id ∧ Connection.IsMarketData msg.messageType
  | poller, msg => msg.messageType = .openInterest

/-- The fragments that a subscriber attributes to a source. -/
def Source.selects (source : Source) (fragment : List UInt8) : Bool :=
  (NormalizedMessage.fromBytes fragment).toOption.any source.sends

/-- The fragments of a source that a subscriber receives. -/
def receivedFrom (source : Source) (deliveries : List Delivery) : List (List UInt8) :=
  (deliveries.filterMap Delivery.fragment?).filter source.selects

/-- What a subscriber who selects the source sees. -/
def Source.sees (source : Source) (delivery : Delivery) : Bool :=
  delivery.fragment?.any source.selects

private theorem receivedFrom_filter (source : Source) (deliveries : List Delivery) :
    receivedFrom source deliveries =
      (deliveries.filter source.sees).filterMap Delivery.fragment? := by
  rw [receivedFrom, List.filter_filterMap, List.filterMap_filter]
  congr 1
  funext delivery
  cases delivery with
  | accepted fragment =>
    cases chosen : source.selects fragment <;> simp [Source.sees, Delivery.fragment?, chosen]
  | refused | unencodable => rfl

/-- A fragment that carries a message of one source is selected as what the message says. -/
private theorem selects_of_carries {source : Source} {choice : Bool} {msgs : List NormalizedMessage}
    {deliveries : List Delivery} (carries : List.Forall₂ Carries msgs deliveries)
    (sent : ∀ msg ∈ msgs, source.sends msg = choice) {delivery : Delivery}
    (member : delivery ∈ deliveries) {fragment : List UInt8}
    (received : delivery.fragment? = some fragment) : source.selects fragment = choice := by
  obtain ⟨msg, inside, carried⟩ := exists_carried carries member
  rw [Source.selects, carried fragment received]
  exact sent msg inside

namespace Settings

variable (settings : Settings)

/-- The messages that an input of a source leads to, as they are stamped. -/
def made : (source : Source) → source.State → source.Input → List NormalizedMessage
  | .connection id, connection, input => connection.made (settings.task id) input
  | .poller, poller, poll => poller.made poll

/-- Of the numbers that a source has taken none was lost. -/
def Intact : (source : Source) → List source.Input → Prop
  | .connection id, inputs => Connection.Intact (settings.task id)
    ((Connection.machine (settings.task id)).history (.start settings.reconnectDelayMs) inputs)
  | .poller, polls =>
    OpenInterestPoller.AllAccepted (OpenInterestPoller.machine.effects .start polls)

private theorem carries_step (source : Source) (state : source.State) (input : source.Input) :
    List.Forall₂ Carries (settings.made source state input)
      ((settings.member source).answer state input) := by
  cases source with
  | connection id => exact (Connection.account_step (settings.task id) state input).contents
  | poller => exact (OpenInterestPoller.account_step state input).2.1

/-- Everything that a source makes says so. -/
theorem sends_made (source other : Source) (state : other.State) (input : other.Input) :
    ∀ msg ∈ settings.made other state input, source.sends msg = decide (other = source) := by
  intro msg member
  cases other with
  | connection id =>
    obtain ⟨-, own, data⟩ := Connection.madeBy_makeAll msg member
    have origin : msg.header.connectionId = id := own
    cases source with
    | connection id' =>
      simp [Source.sends, origin, data]
    | poller =>
      have kind : msg.messageType ≠ .openInterest := by
        intro other
        rw [other] at data
        exact absurd data (by decide)
      simp [Source.sends, kind]
  | poller =>
    have kind := (OpenInterestPoller.account_step state input).2.2 msg member
    have other : ¬Connection.IsMarketData .openInterest := by decide
    cases source <;> simp [Source.sends, kind, other]

/-- Everything that a source publishes is attributed to it. -/
theorem selects_step (source other : Source) (state : other.State) (input : other.Input)
    {delivery : Delivery} (member : delivery ∈ (settings.member other).answer state input)
    {fragment : List UInt8} (received : delivery.fragment? = some fragment) :
    source.selects fragment = decide (other = source) :=
  selects_of_carries (settings.carries_step other state input)
    (settings.sends_made source other state input) member received

/-- A subscriber who selects one source sees the run of this source alone. -/
theorem receivedFrom_connector (source : Source) (inputs : List (Σ source : Source, source.Input)) :
    receivedFrom source (settings.connector.effects settings.start inputs) =
      ((settings.member source).effects (settings.start source)
        (Machine.inputsOf source inputs)).filterMap Delivery.fragment? := by
  have unseen : ∀ other, other ≠ source → ∀ state input,
      ∀ delivery ∈ (settings.member other).answer state input, source.sees delivery = false := by
    intro other differs state input delivery member
    rw [Source.sees]
    cases received : delivery.fragment? with
    | none => rfl
    | some fragment =>
      have choice := settings.selects_step source other state input member received
      rw [decide_eq_false differs] at choice
      exact choice
  have alone := Machine.family_effects settings.member settings.start unseen inputs
  rw [receivedFrom_filter, connector, alone, ← receivedFrom_filter, receivedFrom,
    List.filter_eq_self]
  intro fragment inside
  obtain ⟨delivery, member, received⟩ := List.mem_filterMap.mp inside
  rw [Machine.effects_eq_log] at member
  obtain ⟨event, -, answered⟩ := List.mem_flatMap.mp member
  have choice := settings.selects_step source source event.before event.input answered received
  rwa [decide_eq_true rfl] at choice

/-- As many numbers as a source can take: two for each frame that a connection forwards, and one for
each request of the poller. -/
def budget : (source : Source) → List source.Input → ℕ
  | .connection id, inputs => 2 * (Connection.forwarded (settings.task id)
    (.start settings.reconnectDelayMs) inputs).length
  | .poller, polls => polls.length

/-- A run of a source alone. -/
theorem account_run (source : Source) (inputs : List source.Input) :
    Tally 0 (settings.budget source inputs)
        (shown ((settings.member source).effects (settings.start source) inputs))
        (source.counter ((settings.member source).final (settings.start source) inputs))
        (settings.Intact source inputs) ∧
      List.Forall₂ Carries
        ((settings.member source).log (settings.made source) (settings.start source) inputs)
        ((settings.member source).effects (settings.start source) inputs) := by
  cases source with
  | connection id =>
    exact Connection.account_run (settings.task id) (.start settings.reconnectDelayMs) inputs
  | poller => exact OpenInterestPoller.account_run .start inputs

/-- In every run of the connector the fragments of each source show numbers of its counter, from 0
on, in their order, and they show all numbers that the counter has taken exactly if no call failed
after it took a number and no message was refused or did not fit. As few numbers are taken as the
frames and requests allow. -/
theorem numbers_accounted (source : Source) (inputs : List (Σ source : Source, source.Input)) :
    Tally 0 (settings.budget source (Machine.inputsOf source inputs))
      ((receivedFrom source (settings.connector.effects settings.start inputs)).map seqOf)
      (source.counter (settings.connector.final settings.start inputs source))
      (settings.Intact source (Machine.inputsOf source inputs)) := by
  rw [receivedFrom_connector, connector, Machine.family_final]
  exact (settings.account_run source _).1

/-- In every run of the connector the fragments of each source decode to messages that this source
has made of its own inputs, in their order. -/
theorem stream_decodes (source : Source) (inputs : List (Σ source : Source, source.Input)) :
    ((receivedFrom source (settings.connector.effects settings.start inputs)).map
        NormalizedMessage.fromBytes).Sublist
      (((settings.member source).log (settings.made source) (settings.start source)
        (Machine.inputsOf source inputs)).map .ok) := by
  rw [receivedFrom_connector]
  exact received_sublist (settings.account_run source _).2

end Settings

end TradingConnectivity.Connector
