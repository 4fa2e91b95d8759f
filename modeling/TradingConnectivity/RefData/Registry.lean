import TradingConnectivity.ConnectorCore.Message
import TradingConnectivity.Machine.History

/-! # The instrument registry

The registry keeps the last definition of every symbol and emits an event whenever a symbol is new
or one of its business fields changed. A consumer that folds the events over an empty map holds
what the registry holds.
-/

namespace TradingConnectivity.RefData

open ConnectorCore

inductive RefDataEvent
  /-- The symbol was seen for the first time. -/
  | added (definition : InstrumentDefinition) (status : TradingStatus)
  /-- A business field changed; the status is present only when `isTrading` did. -/
  | updated (old new : InstrumentDefinition) (status : Option TradingStatus)
deriving DecidableEq, Repr

namespace RefDataEvent

/-- The current definition. -/
def definition : RefDataEvent → InstrumentDefinition
  | added definition _ => definition
  | updated _ new _ => new

def tradingStatus : RefDataEvent → Option TradingStatus
  | added _ status => some status
  | updated _ _ status => status

end RefDataEvent

/-- Venue, market and instance are those of the definition. -/
def makeTradingStatus (definition : InstrumentDefinition) (seq : UInt64) : TradingStatus where
  header :=
    { schemaVersion := schemaVersion
      messageType := .tradingStatus
      venueId := definition.header.venueId
      marketType := definition.header.marketType
      instrumentId := definition.header.instrumentId
      connectionId := 0
      instanceId := definition.header.instanceId
      sequenceNumber := seq
      exchangeEventTs := tsNone
      exchangeTxTs := tsNone
      localRecvTs := tsNone
      localPublishTs := tsNone }
  symbol := definition.symbol
  isTrading := definition.isTrading

/-- The header is left out: it changes with every fetch. -/
def businessFieldsDiffer (a b : InstrumentDefinition) : Bool :=
  a.baseAsset != b.baseAsset ||
    a.quoteAsset != b.quoteAsset ||
    a.priceScale != b.priceScale ||
    a.qtyScale != b.qtyScale ||
    a.tickSize != b.tickSize ||
    a.stepSize != b.stepSize ||
    a.minQty != b.minQty ||
    a.minNotional != b.minNotional ||
    a.contractSize != b.contractSize ||
    a.isTrading != b.isTrading

/-- The comparison forgets no field: definitions of one symbol that pass it are equal up to the
header. -/
theorem businessFieldsDiffer_eq_false_iff {a b : InstrumentDefinition}
    (symbol : a.symbol = b.symbol) :
    businessFieldsDiffer a b = false ↔ { a with header := b.header } = b := by
  cases a
  cases b
  simp only [businessFieldsDiffer, Bool.or_eq_false_iff, bne_eq_false_iff_eq,
    InstrumentDefinition.mk.injEq, true_and] at symbol ⊢
  tauto

abbrev Instruments := Std.ExtTreeMap String InstrumentDefinition

structure InstrumentRegistry where
  instruments : Instruments
  /-- The sequence number of the next `TradingStatus`. -/
  nextSeq : UInt64

namespace InstrumentRegistry

def new : InstrumentRegistry := ⟨∅, 0⟩

/-- Insert or update a definition. The counter advances whether or not there is an event. -/
def upsert (registry : InstrumentRegistry) (definition : InstrumentDefinition) :
    Option RefDataEvent × InstrumentRegistry :=
  let seq := registry.nextSeq
  let registry := { registry with nextSeq := registry.nextSeq + 1 }
  match registry.instruments[definition.symbol]? with
  | none =>
      let status := makeTradingStatus definition seq
      (some (.added definition status), { registry with
        instruments := registry.instruments.insert definition.symbol definition })
  | some prev =>
      if businessFieldsDiffer prev definition then
        let status :=
          if prev.isTrading != definition.isTrading then some (makeTradingStatus definition seq)
          else none
        (some (.updated prev definition status), { registry with
          instruments := registry.instruments.insert definition.symbol definition })
      else (none, registry)

/-- Apply a batch, in order. -/
def applyBatch (registry : InstrumentRegistry) :
    List InstrumentDefinition → List RefDataEvent × InstrumentRegistry
  | [] => ([], registry)
  | definition :: rest =>
      let (event, registry) := registry.upsert definition
      let (events, registry) := registry.applyBatch rest
      (event.toList ++ events, registry)

end InstrumentRegistry

end TradingConnectivity.RefData
