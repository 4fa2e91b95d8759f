import TradingConnectivity.Connector.Stream

/-! # Instrument definitions at startup

Before a connector starts its tasks it publishes the definitions of its instruments into the stream,
so that subscribers know the scales of what follows.
-/

namespace TradingConnectivity.Connector

open ConnectorCore
open Publisher (OfferResult)

/-- A symbol of the universe, and what its definition meets: the clock and the answer of the
publication. -/
structure Listing where
  symbol : String
  publishTs : Int64
  offered : OfferResult

section Startup

variable (imap : String → Option InstrumentDefinition) (recvTs : Int64)

/-- The definition of a symbol, if the instrument is known. -/
def definition? (symbol : String) : Option NormalizedMessage := do
  let inst ← imap symbol
  return .instrumentDefinition { inst with header := { inst.header with localRecvTs := recvTs } }

/-- The definitions are published one after the other, out of one buffer. -/
def publishDefinitions : List Listing → List UInt8 → List Delivery
  | [], _ => []
  | listing :: rest, buf =>
    match definition? imap recvTs listing.symbol with
    | none => publishDefinitions rest buf
    | some msg =>
      let (delivery, buf) := publishOne msg listing.publishTs listing.offered buf
      delivery :: publishDefinitions rest buf

def startup (listings : List Listing) : List Delivery :=
  publishDefinitions imap recvTs listings (List.replicate 65536 0)

/-- The definitions of a universe, as they are stamped. -/
def definitions (listings : List Listing) : List NormalizedMessage :=
  listings.filterMap fun listing =>
    (definition? imap recvTs listing.symbol).map (·.withPublishTs listing.publishTs)

variable {imap recvTs}

/-- Definitions that say what they are arrive as they were stamped. -/
theorem publishDefinitions_carries
    (announced : ∀ symbol inst, imap symbol = some inst →
      inst.header.messageType = .instrumentDefinition) (listings : List Listing)
    (buf : List UInt8) :
    List.Forall₂ Carries (definitions imap recvTs listings)
      (publishDefinitions imap recvTs listings buf) := by
  induction listings generalizing buf with
  | nil => exact .nil
  | cons listing rest ih =>
    rw [definitions, publishDefinitions]
    cases known : definition? imap recvTs listing.symbol with
    | none =>
      rw [List.filterMap_cons_none (by rw [known]; rfl)]
      exact ih buf
    | some msg =>
      have announces : msg.header.messageType = msg.messageType := by
        obtain ⟨inst, found, ⟨⟩⟩ := Option.bind_eq_some_iff.mp known
        exact (announced listing.symbol inst found :)
      rw [List.filterMap_cons_some (by rw [known]; rfl)]
      exact .cons (publishOne_carries msg listing.publishTs listing.offered buf announces) (ih _)

theorem messageType_definition {listings : List Listing} :
    ∀ msg ∈ definitions imap recvTs listings, msg.messageType = .instrumentDefinition := by
  intro msg member
  obtain ⟨listing, -, stamped⟩ := List.mem_filterMap.mp member
  obtain ⟨plain, known, rfl⟩ := Option.map_eq_some_iff.mp stamped
  obtain ⟨inst, -, ⟨⟩⟩ := Option.bind_eq_some_iff.mp known
  rfl

/-- No source sends definitions. -/
theorem sends_definition {listings : List Listing} (source : Source) :
    ∀ msg ∈ definitions imap recvTs listings, source.sends msg = false := by
  intro msg member
  have kind := messageType_definition msg member
  have other : ¬Connection.IsMarketData .instrumentDefinition := by decide
  cases source with
  | connection id => simp [Source.sends, kind, other]
  | poller => simp [Source.sends, kind]

end Startup

end TradingConnectivity.Connector
