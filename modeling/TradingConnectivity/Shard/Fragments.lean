import TradingConnectivity.Shard.Isolation

/-! # What becomes of the message of a frame

The message of a frame waits in the buffer while its symbol handles it, and announcements are
encoded over it. So a message that fits is published exactly if the symbol announces nothing
(`frame_published_iff`): a gap, a recovery and every change of the feed state cost the message that
caused them.
-/

namespace TradingConnectivity.Shard

open Codec ConnectorCore Normalize
open NormalizedMessage (fromBytes)

/-- An effect that consumers see. -/
def Effect.isAnnouncement : Effect → Bool
  | announce _ _ => true
  | fetchSnapshot _ | fetchComparison _ => false

/-- Bytes that begin with the header of a control message. -/
def BeginsControl (bytes : List UInt8) : Prop :=
  ∃ (header : MessageHeader) (control : Control),
    header.wire <+: bytes ∧ header.messageType = control.messageType

private theorem BeginsControl.not_data {bytes : List UInt8} (begins : BeginsControl bytes)
    {m : NormalizedMessage} (data : Spot.IsData m.messageType) : fromBytes bytes ≠ .ok m := by
  intro decodes
  obtain ⟨header, control, front, kind⟩ := begins
  rw [NormalizedMessage.messageType_of_fromBytes front decodes, kind] at data
  cases control <;> rcases data with h | h | h <;> cases h

theorem BeginsControl.take {bytes : List UInt8} (begins : BeginsControl bytes) {n : ℕ}
    (enough : headerSize ≤ n) : BeginsControl (bytes.take n) := by
  obtain ⟨header, control, front, kind⟩ := begins
  refine ⟨header, control, List.prefix_take_iff.mpr ⟨front, ?_⟩, kind⟩
  rwa [header.length_wire]

namespace Outbox

variable {inst : InstrumentDefinition} {work : Work Outbox (List UInt8)}

/-- Without announcements nothing happens to the outbox. -/
theorem performAll_of_silent (ctx : NormalizeCtx) (inst : InstrumentDefinition)
    {effects : List Effect} (silent : ∀ e ∈ effects, ¬e.isAnnouncement)
    (work : Work Outbox (List UInt8)) : performAll ctx inst effects work = work := by
  induction effects with
  | nil => rfl
  | cons effect rest ih =>
    have others := ih fun e member => silent e (List.mem_cons_of_mem _ member)
    cases effect with
    | announce control ts => exact absurd rfl (silent _ List.mem_cons_self)
    | fetchSnapshot now | fetchComparison now => exact others

/-- The announcements are offered one by one, and the last one stays in the buffer. -/
theorem performAll_announces (ctx : NormalizeCtx) (room : 8192 ≤ work.state.encodeBuf.length)
    (short : inst.symbol.utf8ByteSize ≤ 8000) (effects : List Effect) :
    ∃ fragments, (performAll ctx inst effects work).effects = work.effects ++ fragments ∧
      (∀ f ∈ fragments, BeginsControl f) ∧
      (BeginsControl work.state.encodeBuf ∨ (∃ e ∈ effects, e.isAnnouncement) →
        BeginsControl (performAll ctx inst effects work).state.encodeBuf) := by
  induction effects generalizing work with
  | nil =>
    refine ⟨[], (List.append_nil _).symm, by simp, fun before => ?_⟩
    rcases before with begins | ⟨e, member, -⟩
    · exact begins
    · cases member
  | cons effect rest ih =>
    cases effect with
    | fetchSnapshot now | fetchComparison now =>
      obtain ⟨fragments, added, controls, last⟩ := ih room
      refine ⟨fragments, added, controls, fun before => last ?_⟩
      rcases before with begins | ⟨e, member, shown⟩
      · exact .inl begins
      · rcases List.mem_cons.mp member with rfl | member
        · cases shown
        · exact .inr ⟨e, member, shown⟩
    | announce control ts =>
      obtain ⟨bytes, small, transmits, performed⟩ :=
        @perform_announce inst work ctx room short control ts
      have begins : BeginsControl bytes := ⟨_, control, transmits.front, rfl⟩
      have still :
          8192 ≤ (perform ctx inst (.announce control ts) work).state.encodeBuf.length := by
        rw [performed, List.length_append, List.length_drop]
        omega
      obtain ⟨fragments, added, controls, last⟩ := ih still
      refine ⟨bytes :: fragments, ?_, ?_, fun _ => last (.inl ?_)⟩
      · rw [performAll, List.foldl_cons, ← performAll, added, performed, List.append_assoc]
        rfl
      · exact List.forall_mem_cons.mpr ⟨begins, controls⟩
      · obtain ⟨header, kind, front, same⟩ := begins
        rw [performed]
        exact ⟨header, kind, front.trans (List.prefix_append _ _), same⟩

end Outbox

namespace SpotShard

/-- What the symbol of a frame does about its message. -/
def reaction (state : SymbolState) (msg : NormalizedMessage) (encodedLen : ℕ) (recvTs now : Int64)
    (fetched : Option MarketData.BookSnapshot) : List Effect :=
  (symbolInput msg encodedLen recvTs now fetched).elim [] (SymbolState.machine.answer state)

section Frame

variable {shard : SpotShard} {symbol : String} {state : SymbolState} {event : Spot.SpotEvent}
  {recvTs : Int64} {msg : NormalizedMessage} {next : UInt64}

/-- A frame with a message leads to what is done about the message. -/
private theorem answer_frame (running : shard.running)
    (found : shard.engine.get? symbol = some state)
    (normalized : (Spot.normalizeSpotEvent event state.inst shard.ctx recvTs).run.run
      shard.outbox.seq = (.ok (some msg), next)) (now : Int64)
    (fetched : Option MarketData.BookSnapshot) :
    machine.answer shard (.frame symbol event recvTs now fetched) =
      (onMessage symbol msg recvTs now fetched
        ⟨{ shard with outbox := { shard.outbox with seq := next } }, []⟩).effects := by
  have own : symbolFromEvent symbol event = some symbol := by
    cases event with
    | unknown stream => cases normalized
    | bookTicker | depthUpdate | trade => rfl
  have handled : handle (.frame symbol event recvTs now fetched) ⟨shard, []⟩ =
      onFrame symbol event recvTs now fetched ⟨shard, []⟩ := if_pos running
  change (handle (.frame symbol event recvTs now fetched) ⟨shard, []⟩).effects = _
  rw [handled, onFrame, own, Option.bind_some, found]
  simp only [normalized]
  rfl

/-- A message that does not fit into the buffer is dropped, and its symbol does not hear of it. -/
private theorem onMessage_too_long {e : ConnectorCore.Error} {encoded : List UInt8}
    (fails : msg.encodeInto shard.outbox.encodeBuf = (.error e, encoded)) (now : Int64)
    (fetched : Option MarketData.BookSnapshot) :
    (onMessage symbol msg recvTs now fetched
      ⟨{ shard with outbox := { shard.outbox with seq := next } }, []⟩).effects = [] := by
  rw [onMessage]
  simp only [fails]
  rfl

/-- A message that fits is followed by the announcements of its symbol, and then the front of the
buffer is offered. -/
private theorem onMessage_fits {len : ℕ} {encoded : List UInt8}
    (found : shard.engine.get? symbol = some state)
    (encodes : msg.encodeInto shard.outbox.encodeBuf = (.ok len, encoded)) (now : Int64)
    (fetched : Option MarketData.BookSnapshot) :
    (onMessage symbol msg recvTs now fetched
      ⟨{ shard with outbox := { shard.outbox with seq := next } }, []⟩).effects =
      let done := Outbox.performAll shard.ctx state.inst
        (reaction state msg len recvTs now fetched) ⟨⟨next, encoded⟩, []⟩
      done.effects ++ [done.state.encodeBuf.take len] := by
  rw [onMessage]
  simp only [encodes]
  rw [reaction]
  cases symbolInput msg len recvTs now fetched with
  | none => rfl
  | some input =>
    simp only
    rw [handleSymbol]
    simp only [Work.update_state, found]
    rfl

/-- The message of a frame is published exactly if it fits into the buffer and its symbol announces
nothing. -/
theorem frame_published_iff (ready : shard.Ready) (running : shard.running)
    (found : shard.engine.get? symbol = some state)
    (normalized : (Spot.normalizeSpotEvent event state.inst shard.ctx recvTs).run.run
      shard.outbox.seq = (.ok (some msg), next))
    (wellFormed : msg.WellFormed) (now : Int64) (fetched : Option MarketData.BookSnapshot) :
    (∃ fragment ∈ machine.answer shard (.frame symbol event recvTs now fetched),
        fromBytes fragment = .ok msg) ↔
      ∃ len encoded, msg.encodeInto shard.outbox.encodeBuf = (.ok len, encoded) ∧
        ∀ e ∈ reaction state msg len recvTs now fetched, ¬e.isAnnouncement := by
  rw [answer_frame running found normalized]
  cases encodes : msg.encodeInto shard.outbox.encodeBuf with | mk result encoded =>
  cases result with
  | error e =>
    rw [onMessage_too_long encodes]
    simp
  | ok len =>
    rw [onMessage_fits found encodes]
    constructor
    · rintro ⟨fragment, member, decodes⟩
      refine ⟨len, encoded, rfl, fun e reacts announced => ?_⟩
      obtain ⟨-, data, -⟩ := Spot.normalized_header normalized
      have size := msg.length_encodeInto shard.outbox.encodeBuf
      rw [encodes] at size
      have room : 8192 ≤ encoded.length := size ▸ ready.room
      obtain ⟨fragments, added, controls, last⟩ := @Outbox.performAll_announces state.inst
        ⟨⟨next, encoded⟩, []⟩ shard.ctx room (ready.short found)
        (reaction state msg len recvTs now fetched)
      obtain ⟨-, enough, -⟩ := NormalizedMessage.enough_of_encodeInto encodes
      rcases List.mem_append.mp member with control | frame
      · rw [added] at control
        exact (controls fragment control).not_data data decodes
      · rw [List.mem_singleton.mp frame] at decodes
        exact ((last (.inr ⟨e, reacts, announced⟩)).take enough).not_data data decodes
    · rintro ⟨_, _, same, silent⟩
      obtain rfl := Except.ok.inj (Prod.mk.inj same).1
      rw [Outbox.performAll_of_silent shard.ctx state.inst silent]
      exact ⟨_, List.mem_singleton_self _,
        NormalizedMessage.fromBytes_of_encodeInto wellFormed encodes⟩

end Frame

def firstBbo : BestBidOffer where
  header :=
    makeHeader .bestBidOffer (bitcoin .binanceSpot .spot) ⟨.binanceSpot, .spot, 0, 0⟩ 0 tsNone 7
  symbol := "BTCUSDT"
  priceScale := 2
  qtyScale := 5
  bidPrice := 9650010
  bidQty := 150000
  askPrice := 9650020
  askQty := 200000
  updateId := 1

private theorem normalized_firstBbo :
    (Spot.normalizeSpotEvent (.bookTicker ⟨1, "96500.10", "1.5", "96500.20", "2"⟩)
      (SymbolState.new (bitcoin .binanceSpot .spot)).inst
      (start (.ofInsts 0 twoInsts)).ctx 7).run.run (start (.ofInsts 0 twoInsts)).outbox.seq =
      (.ok (some (.bestBidOffer firstBbo)), 1) := by
  rfl

private theorem encodes_firstBbo : ∃ len encoded,
    (NormalizedMessage.bestBidOffer firstBbo).encodeInto
      (start (.ofInsts 0 twoInsts)).outbox.encodeBuf = (.ok len, encoded) := by
  have wellFormed : (NormalizedMessage.bestBidOffer firstBbo).WellFormed :=
    ⟨rfl, by decide, by decide⟩
  obtain ⟨bytes, transmits⟩ := NormalizedMessage.transmits wellFormed
  have number : ∀ v, Writes (Encoder.putI64 v) (int64Bytes v) := fun v => writes_put _ _
  have byte : ∀ v, Writes (Encoder.putU8 v) [v] := fun v => writes_put _ _
  have size := NormalizedMessage.length_of_writes transmits rfl
    ((Encoder.writes_putStr (by decide)).bind ((byte _).bind ((byte _).bind ((number _).bind
      ((number _).bind ((number _).bind ((number _).bind (writes_put _ (uint64Bytes 1)))))))))
  have fits : bytes.length ≤ (start (.ofInsts 0 twoInsts)).outbox.encodeBuf.length := by
    rw [start, List.length_replicate]
    have symbol : firstBbo.symbol.utf8ByteSize = 7 := by rfl
    simp [headerSize, symbol] at size
    omega
  exact ⟨_, _, transmits.encodes _ fits⟩

/-- A fresh symbol announces nothing when the first best prices arrive, and they are published. -/
theorem firstBbo_published :
    ∃ fragment ∈ machine.answer (start (.ofInsts 0 twoInsts)) (.frame "BTCUSDT"
        (.bookTicker ⟨1, "96500.10", "1.5", "96500.20", "2"⟩) 7 8 none),
      fromBytes fragment = .ok (.bestBidOffer firstBbo) := by
  obtain ⟨len, encoded, encodes⟩ := encodes_firstBbo
  refine (frame_published_iff (ready_start (by decide)) rfl get?_twoInsts normalized_firstBbo
    ⟨rfl, by decide, by decide⟩ 8 none).mpr ⟨len, encoded, encodes, ?_⟩
  have nothing : reaction (.new (bitcoin .binanceSpot .spot)) (.bestBidOffer firstBbo) len 7 8
      none = [] := by rfl
  simp [nothing]

end SpotShard

end TradingConnectivity.Shard
