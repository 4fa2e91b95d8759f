import TradingConnectivity.ConnectorCore.Encoding
import TradingConnectivity.Normalize.Context
import TradingConnectivity.Shard.Announced

/-! # The outbox of a shard

A shard encodes every message into one buffer and offers the front of it to the publication, which
accepts everything. The control messages that a symbol announces get their headers here. A consumer
decodes the fragments and keeps what they say about the instrument it is interested in; reading the
fragments of the announced messages is reading the messages (`receive_performAll`).
-/

namespace TradingConnectivity.Shard

open Codec ConnectorCore Normalize

/-- The header of a message that a shard writes itself, for a symbol or for the whole shard. -/
def controlHeader (msgType : MessageType) (ctx : NormalizeCtx) (instrumentId : UInt32)
    (seq : UInt64) (ts : Int64) : MessageHeader where
  schemaVersion := schemaVersion
  messageType := msgType
  venueId := ctx.venueId
  marketType := ctx.marketType
  instrumentId := instrumentId
  connectionId := ctx.connectionId
  instanceId := ctx.instanceId
  sequenceNumber := seq
  exchangeEventTs := tsNone
  exchangeTxTs := tsNone
  localRecvTs := ts
  localPublishTs := ts

def ctrlHdr (msgType : MessageType) (ctx : NormalizeCtx) (inst : InstrumentDefinition)
    (seq : UInt64) (ts : Int64) : MessageHeader :=
  controlHeader msgType ctx inst.header.instrumentId seq ts

def shardHdr (msgType : MessageType) (ctx : NormalizeCtx) (seq : UInt64) (ts : Int64) :
    MessageHeader := controlHeader msgType ctx 0 seq ts

namespace Control

def messageType : Control → MessageType
  | gapDetected _ _ => .gapDetected
  | bookStale _ => .bookStale
  | bookRecovered _ => .bookRecovered
  | feedStatus _ => .feedStatus

/-- The control message of a symbol. -/
def message (control : Control) (header : MessageHeader) (symbol : String) : NormalizedMessage :=
  match control with
  | gapDetected expectedUpdateId receivedUpdateId =>
    .gapDetected { header, symbol, expectedUpdateId, receivedUpdateId }
  | bookStale reason => .bookStale { header, symbol, reason }
  | bookRecovered snapshotUpdateId => .bookRecovered { header, symbol, snapshotUpdateId }
  | feedStatus state => .feedStatus { header, state }

variable (control : Control) {header : MessageHeader} {symbol : String}

@[simp] theorem header_message : (control.message header symbol).header = header := by
  cases control <;> rfl

private theorem wellFormed_message (announced : header.messageType = control.messageType)
    (short : symbol.utf8ByteSize ≤ 8000) : (control.message header symbol).WellFormed := by
  have fits : symbol.utf8ByteSize ≤ u16Max := short.trans (by decide)
  cases control <;> exact ⟨announced, by simp [message, NormalizedMessage.strings, fits],
    by simp [message, NormalizedMessage.levelLists]⟩

/-- The control messages of a symbol with a short name fit into eight kilobytes. -/
theorem transmits_message (announced : header.messageType = control.messageType)
    (short : symbol.utf8ByteSize ≤ 8000) : ∃ bytes,
      Transmits (control.message header symbol).header (control.message header symbol).encodeInto
        NormalizedMessage.fromBytes (control.message header symbol) bytes ∧
      bytes.length ≤ 8192 := by
  obtain ⟨bytes, transmits⟩ :=
    NormalizedMessage.transmits (control.wellFormed_message announced short)
  refine ⟨bytes, transmits, ?_⟩
  have fits : symbol.utf8ByteSize ≤ u16Max := short.trans (by decide)
  have str := Encoder.writes_putStr fits
  have number : ∀ v, Writes (Encoder.putU64 v) (uint64Bytes v) := fun v => writes_put _ _
  have byte : ∀ v, Writes (Encoder.putU8 v) [v] := fun v => writes_put _ _
  cases control with
  | gapDetected expected received =>
    have size := NormalizedMessage.length_of_writes transmits rfl
      (str.bind ((number expected).bind (number received)))
    simp [headerSize] at size
    omega
  | bookStale reason =>
    have size := NormalizedMessage.length_of_writes transmits rfl (str.bind (byte _))
    simp [headerSize] at size
    omega
  | bookRecovered id =>
    have size := NormalizedMessage.length_of_writes transmits rfl (str.bind (number id))
    simp [headerSize] at size
    omega
  | feedStatus state =>
    have size := NormalizedMessage.length_of_writes transmits rfl (byte state.toByte)
    simp [headerSize] at size
    omega

end Control

/-- The buffer that every message is encoded into, and the counter of the sequence numbers. -/
structure Outbox where
  seq : UInt64
  encodeBuf : List UInt8

namespace Outbox

/-- A message that cannot be encoded is dropped. -/
def offer (m : NormalizedMessage) (work : Work Outbox (List UInt8)) : Work Outbox (List UInt8) :=
  match m.encodeInto work.state.encodeBuf with
  | (.ok len, encodeBuf) => (work.update ({ · with encodeBuf })).emit (encodeBuf.take len)
  | (.error _, encodeBuf) => work.update ({ · with encodeBuf })

/-- A message of the shard gets the number after the last one that was taken. -/
def offerNext (m : UInt64 → NormalizedMessage) (work : Work Outbox (List UInt8)) :
    Work Outbox (List UInt8) :=
  let seq := work.state.seq + 1
  offer (m seq) (work.update ({ · with seq }))

/-- What an effect of a symbol does to the outbox. -/
def perform (ctx : NormalizeCtx) (inst : InstrumentDefinition) (effect : Effect)
    (work : Work Outbox (List UInt8)) : Work Outbox (List UInt8) :=
  match effect with
  | .announce control ts =>
    offerNext (fun seq => control.message (ctrlHdr control.messageType ctx inst seq ts) inst.symbol)
      work
  | .fetchSnapshot _ | .fetchComparison _ => work

def performAll (ctx : NormalizeCtx) (inst : InstrumentDefinition) (effects : List Effect)
    (work : Work Outbox (List UInt8)) : Work Outbox (List UInt8) :=
  effects.foldl (fun work effect => perform ctx inst effect work) work

end Outbox

/-! ## The consumer -/

/-- What a message tells a consumer about an instrument. -/
def Shown.heed (id : UInt32) (shown : Shown) : NormalizedMessage → Shown
  | .bookStale m => if m.header.instrumentId = id then { shown with stale := true } else shown
  | .bookRecovered m => if m.header.instrumentId = id then { shown with stale := false } else shown
  | .feedStatus m => if m.header.instrumentId = id then { shown with feed := m.state } else shown
  | _ => shown

/-- A fragment that cannot be decoded is ignored. -/
def Shown.receive (id : UInt32) (shown : Shown) (fragment : List UInt8) : Shown :=
  match NormalizedMessage.fromBytes fragment with
  | .ok m => shown.heed id m
  | .error _ => shown

/-- A message of this type tells a consumer nothing about an instrument. -/
def Quiet (kind : MessageType) : Prop :=
  kind ≠ .bookStale ∧ kind ≠ .bookRecovered ∧ kind ≠ .feedStatus

instance (kind : MessageType) : Decidable (Quiet kind) :=
  inferInstanceAs (Decidable (_ ∧ _ ∧ _))

variable {id : UInt32} {shown : Shown} {fragment : List UInt8}

/-- The fragment of a control message is read by the consumers of its instrument. -/
private theorem receive_message {control : Control} {header : MessageHeader} {symbol : String}
    (decodes : NormalizedMessage.fromBytes fragment = .ok (control.message header symbol))
    (ts : Int64) : shown.receive id fragment =
      if header.instrumentId = id then shown.read (.announce control ts) else shown := by
  rw [Shown.receive, decodes]
  cases control with
  | gapDetected expected received => exact (ite_self shown).symm
  | bookStale | bookRecovered | feedStatus => rfl

private theorem receive_error {e : Error}
    (fails : NormalizedMessage.fromBytes fragment = .error e) :
    shown.receive id fragment = shown := by
  rw [Shown.receive, fails]

/-- Reading a message again changes nothing. -/
theorem read_read (shown : Shown) (effect : Effect) :
    (shown.read effect).read effect = shown.read effect := by
  cases effect with
  | announce control ts => cases control <;> rfl
  | fetchSnapshot | fetchComparison => rfl

namespace Outbox

variable {ctx : NormalizeCtx} {inst : InstrumentDefinition} {work : Work Outbox (List UInt8)}

/-- What the fragments so far have told the consumer of an instrument. -/
def told (id : UInt32) (start : Shown) (work : Work Outbox (List UInt8)) : Shown :=
  work.effects.foldl (Shown.receive id) start

/-- The front of the buffer, wherever it is cut off, would tell the consumer nothing new. -/
def Silent (id : UInt32) (start : Shown) (work : Work Outbox (List UInt8)) : Prop :=
  ∀ n, (told id start work).receive id (work.state.encodeBuf.take n) = told id start work

theorem told_emit (start : Shown) (fragment : List UInt8) :
    told id start (work.emit fragment) = (told id start work).receive id fragment := by
  rw [told, Work.emit_effects, List.foldl_append]
  rfl

/-- Whatever is offered begins with the header of the message. -/
theorem offer_front {m : NormalizedMessage} {fragment : List UInt8}
    (offered : fragment ∈ (offer m work).effects) :
    fragment ∈ work.effects ∨ m.header.wire <+: fragment := by
  rw [offer] at offered
  cases ran : m.encodeInto work.state.encodeBuf with | mk result encodeBuf =>
  rw [ran] at offered
  cases result with
  | error e => exact .inl offered
  | ok len =>
    obtain ⟨-, enough, front⟩ := NormalizedMessage.enough_of_encodeInto ran
    refine (List.mem_append.mp offered).imp_right fun last => ?_
    rw [List.mem_singleton.mp last]
    exact List.prefix_take_iff.mpr ⟨front, by rwa [MessageHeader.length_wire]⟩

/-- A message that fits is offered, and stays in the front of the buffer. -/
theorem offer_of_transmits {m : NormalizedMessage} {bytes : List UInt8}
    (transmits : Transmits m.header m.encodeInto NormalizedMessage.fromBytes m bytes)
    (fits : bytes.length ≤ work.state.encodeBuf.length) :
    offer m work = (work.update ({ · with
      encodeBuf := bytes ++ work.state.encodeBuf.drop bytes.length })).emit bytes := by
  rw [offer, transmits.encodes _ fits]
  simp only [List.take_left]

/-- An announcement takes the next number, is offered and stays in the front of the buffer. -/
theorem perform_announce (ctx : NormalizeCtx) (room : 8192 ≤ work.state.encodeBuf.length)
    (short : inst.symbol.utf8ByteSize ≤ 8000) (control : Control) (ts : Int64) :
    ∃ bytes, bytes.length ≤ 8192 ∧
      Transmits (ctrlHdr control.messageType ctx inst (work.state.seq + 1) ts)
        (control.message (ctrlHdr control.messageType ctx inst (work.state.seq + 1) ts)
          inst.symbol).encodeInto NormalizedMessage.fromBytes
        (control.message (ctrlHdr control.messageType ctx inst (work.state.seq + 1) ts)
          inst.symbol) bytes ∧
      perform ctx inst (.announce control ts) work =
        ⟨⟨work.state.seq + 1, bytes ++ work.state.encodeBuf.drop bytes.length⟩,
          work.effects ++ [bytes]⟩ := by
  have announced : (ctrlHdr control.messageType ctx inst (work.state.seq + 1) ts).messageType =
    control.messageType := rfl
  obtain ⟨bytes, transmits, small⟩ := control.transmits_message announced short
  have offered := @offer_of_transmits (work.update ({ · with seq := work.state.seq + 1 })) _ _
    transmits (small.trans room)
  rw [control.header_message] at transmits
  exact ⟨bytes, small, transmits, offered⟩

/-- The control message of a symbol is told to the consumers of its instrument, and whatever part
of it is offered again tells them nothing new. -/
theorem told_perform (start : Shown) (room : 8192 ≤ work.state.encodeBuf.length)
    (short : inst.symbol.utf8ByteSize ≤ 8000) (effect : Effect) :
    told id start (perform ctx inst effect work) =
        (if inst.header.instrumentId = id then (told id start work).read effect
          else told id start work) ∧
      8192 ≤ (perform ctx inst effect work).state.encodeBuf.length ∧
      (Silent id start work → Silent id start (perform ctx inst effect work)) := by
  cases effect with
  | fetchSnapshot now | fetchComparison now => exact ⟨(ite_self _).symm, room, fun silent => silent⟩
  | announce control ts =>
    obtain ⟨bytes, small, transmits, performed⟩ :=
      @perform_announce inst work ctx room short control ts
    have decodes := transmits.decodes []
    rw [List.append_nil] at decodes
    have news : told id start (perform ctx inst (.announce control ts) work) =
        if inst.header.instrumentId = id then (told id start work).read (.announce control ts)
          else told id start work := by
      have emitted := @told_emit id ⟨⟨work.state.seq + 1,
        bytes ++ work.state.encodeBuf.drop bytes.length⟩, work.effects⟩ start bytes
      rw [receive_message decodes ts] at emitted
      rw [performed]
      exact emitted
    refine ⟨news, ?_, fun _ n => ?_⟩
    · rw [performed, List.length_append, List.length_drop]
      omega
    · rw [news, performed]
      by_cases whole : bytes.length ≤ n
      · -- the whole control message is read a second time
        have cut : (bytes ++ work.state.encodeBuf.drop bytes.length).take n =
            bytes ++ (work.state.encodeBuf.drop bytes.length).take (n - bytes.length) := by
          rw [List.take_append, List.take_of_length_le whole]
        rw [cut, receive_message (transmits.decodes _) ts]
        split
        · rename_i same
          rw [if_pos (show inst.header.instrumentId = id from same), read_read]
        · rfl
      · -- a part of it cannot be decoded
        have less := Nat.not_le.mp whole
        rw [List.take_append_of_le_length less.le]
        have strict : bytes.take n ≠ bytes := by
          intro same
          have size := congrArg List.length same
          rw [List.length_take_of_le less.le] at size
          omega
        obtain ⟨e, fails⟩ := transmits.truncated (bytes.take n) (List.take_prefix n bytes) strict
        exact receive_error fails

/-- Reading the fragments of the announced messages is reading the messages. -/
theorem told_performAll (start : Shown) (room : 8192 ≤ work.state.encodeBuf.length)
    (short : inst.symbol.utf8ByteSize ≤ 8000) (effects : List Effect) :
    told id start (performAll ctx inst effects work) =
        (if inst.header.instrumentId = id then effects.foldl Shown.read (told id start work)
          else told id start work) ∧
      8192 ≤ (performAll ctx inst effects work).state.encodeBuf.length ∧
      (Silent id start work → Silent id start (performAll ctx inst effects work)) := by
  induction effects generalizing work with
  | nil => exact ⟨(ite_self _).symm, room, fun silent => silent⟩
  | cons effect rest ih =>
    obtain ⟨step, kept, silent⟩ := @told_perform id ctx inst work start room short effect
    obtain ⟨later, still, quiet⟩ := ih kept
    refine ⟨?_, still, fun before => quiet (silent before)⟩
    rw [performAll, List.foldl_cons, ← performAll, later, step]
    split <;> rfl

/-- What begins with the header of another message tells nothing. -/
theorem receive_of_header {header : MessageHeader} (front : header.wire <+: fragment)
    (other : Quiet header.messageType) : shown.receive id fragment = shown := by
  obtain ⟨rest, rfl⟩ := front
  have decoded := NormalizedMessage.fromBytes_of_header (header.decode_wire rest)
  rw [Shown.receive, decoded]
  have quiet : ∀ {α : Type} (result : Except Error α) (wrap : α → NormalizedMessage),
      (∀ a, shown.heed id (wrap a) = shown) →
      (match result.map wrap with | .ok m => shown.heed id m | .error _ => shown) = shown := by
    intro α result wrap ignored
    cases result with
    | error e => rfl
    | ok a => exact ignored a
  cases kind : header.messageType with
  | bookStale => exact absurd kind other.1
  | bookRecovered => exact absurd kind other.2.1
  | feedStatus => exact absurd kind other.2.2
  | bookChecksum => rfl
  | _ => exact quiet _ _ fun _ => rfl

/-- A buffer that begins with such a header tells nothing, wherever it is cut off. -/
theorem silent_of_header {header : MessageHeader} (front : header.wire <+: work.state.encodeBuf)
    (other : Quiet header.messageType) (start : Shown) : Silent id start work := by
  intro n
  by_cases whole : headerSize ≤ n
  · refine receive_of_header ?_ other
    refine List.prefix_take_iff.mpr ⟨front, ?_⟩
    rwa [header.length_wire]
  · have short : (work.state.encodeBuf.take n).length < headerSize := by
      rw [List.length_take]
      omega
    have fails : NormalizedMessage.fromBytes (work.state.encodeBuf.take n) =
        .error (.bufferTooShort headerSize (work.state.encodeBuf.take n).length) := by
      rw [NormalizedMessage.fromBytes, MessageHeader.decode_short short]
      rfl
    exact receive_error fails

/-- A message of another type tells nothing. -/
theorem told_offer {m : NormalizedMessage} (other : Quiet m.header.messageType) (start : Shown) :
    told id start (offer m work) = told id start work ∧
      (offer m work).state.encodeBuf.length = work.state.encodeBuf.length := by
  have size := m.length_encodeInto work.state.encodeBuf
  rw [offer]
  cases ran : m.encodeInto work.state.encodeBuf with | mk result encodeBuf =>
  rw [ran] at size
  cases result with
  | error e => exact ⟨rfl, size⟩
  | ok len =>
    obtain ⟨-, -, front⟩ := NormalizedMessage.enough_of_encodeInto ran
    refine ⟨?_, size⟩
    rw [told_emit]
    exact @silent_of_header id (work.update ({ · with encodeBuf })) _ front other start len

end Outbox

end TradingConnectivity.Shard
