import TradingConnectivity.ConnectorCore.Encoding
import TradingConnectivity.Machine.Tally
import TradingConnectivity.Publisher.Backpressure

/-! # Publishing a message

A message is encoded, stamped and offered. It is lost when it does not fit the buffer or the
publication refuses it; otherwise the subscribers receive a fragment that begins with its header.
-/

namespace TradingConnectivity.Connector

open ConnectorCore
open Publisher (OfferResult)

/-- What became of a message. -/
inductive Delivery
  | accepted (fragment : List UInt8)
  | refused (fragment : List UInt8)
  | unencodable

namespace Delivery

def isAccepted : Delivery → Bool
  | accepted _ => true
  | _ => false

/-- The fragment that subscribers receive. -/
def fragment? : Delivery → Option (List UInt8)
  | accepted fragment => some fragment
  | _ => none

end Delivery

/-- A publication that is closed is replaced by a new one; the message is lost. -/
def publishOne (msg : NormalizedMessage) (publishTs : Int64) (offered : OfferResult)
    (buf : List UInt8) : Delivery × List UInt8 :=
  match msg.publishOne publishTs buf with
  | (none, buf) => (.unencodable, buf)
  | (some fragment, buf) => (if offered.isOk then .accepted fragment else .refused fragment, buf)

/-- The sequence numbers that the subscribers are shown. -/
def shown (deliveries : List Delivery) : List (Option UInt64) :=
  (deliveries.filterMap Delivery.fragment?).map seqOf

theorem shown_append (first second : List Delivery) :
    shown (first ++ second) = shown first ++ shown second := by
  rw [shown, List.filterMap_append, List.map_append]
  rfl

/-- The delivery is a fragment with this header, or nothing that subscribers receive. -/
def Fronted (header : MessageHeader) (delivery : Delivery) : Prop :=
  ∀ fragment, delivery.fragment? = some fragment → header.wire <+: fragment

/-- What subscribers receive of the delivery, if anything, is this message. -/
def Carries (msg : NormalizedMessage) (delivery : Delivery) : Prop :=
  ∀ fragment, delivery.fragment? = some fragment → NormalizedMessage.fromBytes fragment = .ok msg

theorem exists_carried {msgs : List NormalizedMessage} {deliveries : List Delivery}
    (carries : List.Forall₂ Carries msgs deliveries) {delivery : Delivery}
    (member : delivery ∈ deliveries) : ∃ msg ∈ msgs, Carries msg delivery := by
  induction carries with
  | nil => cases member
  | cons first _ ih =>
    rcases List.mem_cons.mp member with rfl | later
    · exact ⟨_, List.mem_cons_self, first⟩
    · obtain ⟨msg, inside, carries⟩ := ih later
      exact ⟨msg, List.mem_cons_of_mem _ inside, carries⟩

/-- Subscribers receive messages that were made, in their order. -/
theorem received_sublist {msgs : List NormalizedMessage} {deliveries : List Delivery}
    (carries : List.Forall₂ Carries msgs deliveries) :
    ((deliveries.filterMap Delivery.fragment?).map NormalizedMessage.fromBytes).Sublist
      (msgs.map .ok) := by
  induction carries with
  | nil => exact .slnil
  | @cons msg delivery msgs deliveries first _ ih =>
    cases received : delivery.fragment? with
    | none =>
      rw [List.filterMap_cons_none received]
      exact ih.cons _
    | some fragment =>
      rw [List.filterMap_cons_some received, List.map_cons, List.map_cons, first fragment received]
      exact ih.cons_cons _

section publishOne

variable (msg : NormalizedMessage) (publishTs : Int64) (offered : OfferResult) (buf : List UInt8)

/-- A fragment is the front of the buffer after an encoding of the stamped message. -/
theorem encoded_of_fragment {fragment : List UInt8}
    (received : (publishOne msg publishTs offered buf).1.fragment? = some fragment) :
    ∃ len encoded, (msg.withPublishTs publishTs).encodeInto buf = (.ok len, encoded) ∧
      fragment = encoded.take len := by
  rw [publishOne] at received
  cases ran : msg.encodeInto buf with | mk result encoded =>
  cases result with
  | error e =>
    have none : msg.publishOne publishTs buf = (none, encoded) := by
      rw [NormalizedMessage.publishOne, ran]
    rw [none] at received
    cases received
  | ok len =>
    obtain ⟨stamped, published, -, -⟩ := NormalizedMessage.patch_commutes publishTs ran
    rw [published] at received
    simp only at received
    split at received
    · exact ⟨len, _, stamped, (Option.some.inj received).symm⟩
    · cases received

private theorem publishOne_front :
    Fronted (msg.withPublishTs publishTs).header (publishOne msg publishTs offered buf).1 := by
  intro fragment received
  obtain ⟨len, encoded, stamped, rfl⟩ := encoded_of_fragment msg publishTs offered buf received
  obtain ⟨-, enough, front⟩ := NormalizedMessage.enough_of_encodeInto stamped
  exact List.prefix_take_iff.mpr ⟨front, by rwa [MessageHeader.length_wire]⟩

/-- A message that announces its own type is received as it was stamped. -/
theorem publishOne_carries (announced : msg.header.messageType = msg.messageType) :
    Carries (msg.withPublishTs publishTs) (publishOne msg publishTs offered buf).1 := by
  intro fragment received
  obtain ⟨len, encoded, stamped, rfl⟩ := encoded_of_fragment msg publishTs offered buf received
  have announces : (msg.withPublishTs publishTs).header.messageType =
      (msg.withPublishTs publishTs).messageType := by
    rw [msg.header_withPublishTs]
    cases msg <;> exact announced
  exact NormalizedMessage.fromBytes_of_encodeInto
    (NormalizedMessage.wellFormed_of_encodeInto announces stamped) stamped

/-- A message shows its number if it is accepted. -/
theorem tally_publishOne : Tally msg.header.sequenceNumber 1
    (shown [(publishOne msg publishTs offered buf).1]) (msg.header.sequenceNumber + 1)
    ((publishOne msg publishTs offered buf).1.isAccepted = true) := by
  have fronted := publishOne_front msg publishTs offered buf
  rw [msg.header_withPublishTs] at fronted
  cases delivery : (publishOne msg publishTs offered buf).1 with
  | accepted fragment =>
    rw [delivery] at fronted
    have read := seqOf_of_header (fronted fragment rfl)
    have number : shown [.accepted fragment] = [some msg.header.sequenceNumber] :=
      congrArg (fun n => [n]) read
    rw [number]
    exact (Tally.shown_one _).congr (by simp [Delivery.isAccepted])
  | refused | unencodable =>
    have one : msg.header.sequenceNumber + 1 - msg.header.sequenceNumber = 1 := by grind
    exact (Tally.lost (by grind) (by rw [one]; decide)).congr (by simp [Delivery.isAccepted])

end publishOne

end TradingConnectivity.Connector
