import TradingConnectivity.Connector.Delivery
import TradingConnectivity.Machine.Work
import TradingConnectivity.RefData.Normalizer
import TradingConnectivity.ToMathlib.Except

/-! # The open interest poller

The poller asks for the open interest of one symbol after the other and publishes the answers. It
numbers its messages itself and says that they come from connection 0, whatever the connections do.
-/

namespace TradingConnectivity.Connector

open ConnectorCore RefData
open Normalize (Failure)
open Publisher (OfferResult)

structure OpenInterestResponse where
  openInterest : String
  timeMs : Int64

def normalizeOpenInterest (resp : OpenInterestResponse) (inst : InstrumentDefinition) (seq : UInt64)
    (now : Int64) : Except (Failure RefDataError) OpenInterest := do
  let openInterest ← parseScaled resp.openInterest inst.qtyScale
  return {
    header := {
      schemaVersion := schemaVersion
      messageType := .openInterest
      venueId := inst.header.venueId
      marketType := inst.header.marketType
      instrumentId := inst.header.instrumentId
      connectionId := 0
      instanceId := inst.header.instanceId
      sequenceNumber := seq
      exchangeEventTs := resp.timeMs * 1000000
      exchangeTxTs := tsNone
      localRecvTs := now
      localPublishTs := now }
    symbol := inst.symbol
    qtyScale := inst.qtyScale.toUInt8
    openInterest }

/-- One request of the poller: the instrument, what the request returns if it does not fail, the
clock, and the answer of the publication. -/
structure Poll where
  inst : InstrumentDefinition
  response : Option OpenInterestResponse
  now : Int64
  publishTs : Int64
  offered : OfferResult

/-- The task of the poller ends when the normalizer panics. -/
structure OpenInterestPoller where
  nextSeq : UInt64
  buf : List UInt8
  running : Bool

namespace OpenInterestPoller

def start : OpenInterestPoller := ⟨0, List.replicate 65536 0, true⟩

/-- A request that fails, and an answer that does not normalize, are skipped. -/
def pollOne (poll : Poll) (work : Work OpenInterestPoller Delivery) :
    Work OpenInterestPoller Delivery :=
  match poll.response with
  | none => work
  | some resp =>
    match normalizeOpenInterest resp poll.inst work.state.nextSeq poll.now with
    | .error .panicked => work.update ({ · with running := false })
    | .error (.returned _) => work
    | .ok msg =>
      let (delivery, buf) :=
        publishOne (.openInterest msg) poll.publishTs poll.offered work.state.buf
      (work.update fun s => { s with nextSeq := s.nextSeq + 1, buf }).emit delivery

def handle (poll : Poll) (work : Work OpenInterestPoller Delivery) :
    Work OpenInterestPoller Delivery :=
  if work.state.running then pollOne poll work else work

/-- The poller as a machine; its answers are what became of its messages. -/
def machine : Machine OpenInterestPoller Poll (List Delivery) := .ofHandler handle

/-- The message that a request leads to, as it is stamped. -/
def make (poll : Poll) (seq : UInt64) : Option NormalizedMessage := do
  let resp ← poll.response
  let msg ← (normalizeOpenInterest resp poll.inst seq poll.now).toOption
  return (NormalizedMessage.openInterest msg).withPublishTs poll.publishTs

def made (poller : OpenInterestPoller) (poll : Poll) : List NormalizedMessage :=
  if poller.running then (make poll poller.nextSeq).toList else []

private theorem header_normalized {resp : OpenInterestResponse} {inst : InstrumentDefinition}
    {seq : UInt64} {now : Int64} {msg : OpenInterest}
    (built : normalizeOpenInterest resp inst seq now = .ok msg) :
    msg.header.sequenceNumber = seq ∧ msg.header.messageType = .openInterest := by
  simp only [normalizeOpenInterest, bind, Except.bind_eq_ok_iff] at built
  obtain ⟨_, -, ⟨⟩⟩ := built
  exact ⟨rfl, rfl⟩

/-- All messages were accepted. -/
def AllAccepted (deliveries : List Delivery) : Prop :=
  ∀ delivery ∈ deliveries, delivery.isAccepted = true

/-- A step of the poller publishes a message with the next number, or nothing. -/
theorem handle_cases (poller : OpenInterestPoller) (poll : Poll) :
    (poller.made poll = [] ∧
      ∃ running, handle poll ⟨poller, []⟩ = ⟨{ poller with running }, []⟩) ∨
    ∃ msg : OpenInterest, msg.header.sequenceNumber = poller.nextSeq ∧
      msg.header.messageType = .openInterest ∧
      poller.made poll = [(NormalizedMessage.openInterest msg).withPublishTs poll.publishTs] ∧
      ∃ buf, handle poll ⟨poller, []⟩ = ⟨{ poller with nextSeq := poller.nextSeq + 1, buf },
        [(publishOne (.openInterest msg) poll.publishTs poll.offered poller.buf).1]⟩ := by
  obtain ⟨nextSeq, buf, running⟩ := poller
  cases running with
  | false => exact .inl ⟨rfl, false, rfl⟩
  | true =>
    rw [handle, made, if_pos rfl, if_pos rfl, pollOne, make]
    cases poll.response with
    | none => exact .inl ⟨rfl, true, rfl⟩
    | some resp =>
      cases built : normalizeOpenInterest resp poll.inst nextSeq poll.now with
      | error f =>
        refine .inl ⟨by simp [built, Except.toOption], ?_⟩
        cases f with
        | panicked => exact ⟨false, by simp only [built]; rfl⟩
        | returned e => exact ⟨true, by simp only [built]⟩
      | ok msg =>
        obtain ⟨number, kind⟩ := header_normalized built
        refine .inr ⟨msg, number, kind, by simp [built, Except.toOption], ?_⟩
        exact ⟨_, by simp only [built]; rfl⟩

/-- A step of the poller. -/
theorem account_step (poller : OpenInterestPoller) (poll : Poll) :
    Tally poller.nextSeq 1 (shown (machine.answer poller poll)) (machine.next poller poll).nextSeq
        (AllAccepted (machine.answer poller poll)) ∧
      List.Forall₂ Carries (poller.made poll) (machine.answer poller poll) ∧
      ∀ msg ∈ poller.made poll, msg.messageType = .openInterest := by
  change Tally _ 1 (shown (handle poll ⟨poller, []⟩).effects)
    (handle poll ⟨poller, []⟩).state.nextSeq (AllAccepted (handle poll ⟨poller, []⟩).effects) ∧
    List.Forall₂ Carries _ (handle poll ⟨poller, []⟩).effects ∧ _
  rcases poller.handle_cases poll with
    ⟨nothing, running, idle⟩ | ⟨msg, number, kind, made, buf, published⟩
  · rw [nothing, idle]
    exact ⟨((Tally.nil _).mono (Nat.zero_le 1)).congr (by simp [AllAccepted]), .nil, by simp⟩
  · have own : (NormalizedMessage.openInterest msg).header.sequenceNumber = poller.nextSeq := number
    have tally := tally_publishOne (.openInterest msg) poll.publishTs poll.offered poller.buf
    have carries :=
      publishOne_carries (.openInterest msg) poll.publishTs poll.offered poller.buf kind
    rw [own] at tally
    rw [published, made]
    exact ⟨tally.congr (by simp [AllAccepted]), .cons carries .nil, by simp; rfl⟩

/-- A run of the poller, which takes one number for each answer at most. -/
theorem account_run (poller : OpenInterestPoller) (polls : List Poll) :
    Tally poller.nextSeq polls.length (shown (machine.effects poller polls))
        (machine.final poller polls).nextSeq (AllAccepted (machine.effects poller polls)) ∧
      List.Forall₂ Carries (machine.log made poller polls) (machine.effects poller polls) := by
  induction polls generalizing poller with
  | nil => exact ⟨(Tally.nil _).congr (by simp [AllAccepted]), .nil⟩
  | cons poll rest ih =>
    obtain ⟨tally, carries, -⟩ := poller.account_step poll
    obtain ⟨later, contents⟩ := ih (machine.next poller poll)
    rw [Machine.effects_cons, shown_append, List.length_cons, Nat.add_comm]
    refine ⟨(tally.append later).congr ?_, List.rel_append carries contents⟩
    rw [AllAccepted, AllAccepted, AllAccepted, List.forall_mem_append]

end OpenInterestPoller

end TradingConnectivity.Connector
