import TradingConnectivity.ConnectorCore.Encoding
import TradingConnectivity.Normalize.FuturesHeaders
import TradingConnectivity.Shard.FuturesShard
import TradingConnectivity.Shard.OneAttempt

/-! # A futures shard never builds a book

Every symbol of a shard waits for a first snapshot that nothing requests. So along every run the
books stay empty, no depth event is published, and neither is a gap, a stale book or a recovery
(`books_stay_empty`). A frame with a depth event does not even lead to a heartbeat.
-/

namespace TradingConnectivity.Shard

open ConnectorCore Normalize
open NormalizedMessage (fromBytes)

namespace FuturesShard

/-- A symbol that has buffered depth events and nothing else. -/
def Unused (state : FuturesSymbolState) : Prop :=
  ∃ inst, (FuturesSymbolState.new inst).SameBut state

/-- The type of a message that has nothing to do with a book. -/
def Harmless (kind : MessageType) : Prop :=
  Futures.IsTicker kind ∨ kind = .feedStatus ∨ kind = .heartbeat

/-- Nothing of a book has been announced. -/
def Bookless (fragment : List UInt8) : Prop :=
  ∀ m, fromBytes fragment = .ok m → Harmless m.messageType

/-- Every symbol is unused, and nothing of a book has been announced. -/
structure Idle (work : Work FuturesShard (List UInt8)) : Prop where
  unused : ∀ symbol state, work.state.engine.get? symbol = some state → Unused state
  bookless : ∀ fragment ∈ work.effects, Bookless fragment

variable {work : Work FuturesShard (List UInt8)}

private theorem bookless_of_front {header : MessageHeader} {fragment : List UInt8}
    (front : header.wire <+: fragment) (kind : Harmless header.messageType) :
    Bookless fragment := by
  intro m decodes
  rwa [NormalizedMessage.messageType_of_fromBytes front decodes]

theorem Unused.waiting {state : FuturesSymbolState} (unused : Unused state) : state.Waiting := by
  obtain ⟨inst, recoveryBuf, rfl⟩ := unused
  exact ⟨rfl, rfl⟩

namespace Idle

/-- Only the engine matters. -/
theorem update (idle : Idle work) {change : FuturesShard → FuturesShard}
    (engine : (change work.state).engine = work.state.engine) : Idle (work.update change) where
  unused symbol state found := idle.unused symbol state (engine ▸ found)
  bookless := idle.bookless

/-- A message of a harmless type, if it fits into the buffer. -/
theorem offer (idle : Idle work) {m : NormalizedMessage} (kind : Harmless m.header.messageType) :
    Idle (withOutbox (Outbox.offer m) work) where
  unused := idle.unused
  bookless := by
    intro fragment offered
    rcases Outbox.offer_front offered with earlier | front
    · exact idle.bookless fragment earlier
    · exact bookless_of_front front kind

theorem offerNext (idle : Idle work) {m : UInt64 → NormalizedMessage}
    (kind : ∀ seq, Harmless (m seq).header.messageType) :
    Idle (withOutbox (Outbox.offerNext m) work) where
  unused := idle.unused
  bookless := by
    intro fragment offered
    rcases Outbox.offer_front offered with earlier | front
    · exact idle.bookless fragment earlier
    · exact bookless_of_front front (kind _)

theorem beat (idle : Idle work) (now : Int64) : Idle (beat now work) := by
  rw [FuturesShard.beat]
  split
  · exact (idle.offerNext fun seq => .inr (.inr rfl)).update rfl
  · exact idle

end Idle

private theorem start_idle (shardId : UInt32) (insts : List InstrumentDefinition) (now : Int64) :
    Idle (start (.ofInsts shardId insts) now) := by
  refine Idle.offerNext ⟨?_, ?_⟩ fun seq => .inr (.inl rfl)
  · intro symbol state found
    obtain ⟨inst, -, -, rfl⟩ := SymbolTable.get?_ofInsts found
    exact ⟨inst, .new, rfl⟩
  · exact fun fragment offered => absurd offered List.not_mem_nil

/-- A depth event is buffered, or empties the buffer, and nothing is offered. -/
theorem onBookDelta_idle (idle : Idle work) (frame : FuturesFrame) (bd : BookDelta) :
    Idle (onBookDelta frame bd work) ∧ (onBookDelta frame bd work).effects = work.effects := by
  rw [onBookDelta]
  cases found : work.state.engine.get? frame.symbol with
  | none => exact ⟨idle, rfl⟩
  | some state =>
    have unused := idle.unused frame.symbol state found
    have waits : state.waits = true := by
      simp [FuturesSymbolState.waits, unused.waiting.awaiting]
    simp only [waits, if_true]
    generalize (NormalizedMessage.bookDelta bd).encodeInto work.state.outbox.encodeBuf = encoded
    generalize depthInput frame bd (encoded.1.toOption.getD 0) = input
    obtain ⟨⟨recoveryBuf, same⟩, silent⟩ := FuturesSymbolState.waiting_step
      (FuturesSymbolState.handle_outcome state input) unused.waiting
    change (FuturesSymbolState.handle input ⟨state, []⟩).state = _ at same
    change (FuturesSymbolState.handle input ⟨state, []⟩).effects = [] at silent
    rw [same, silent]
    refine ⟨⟨fun symbol next reached => ?_, idle.bookless⟩, rfl⟩
    change (work.state.engine.set frame.symbol _).get? symbol = some next at reached
    by_cases own : symbol = frame.symbol
    · subst own
      rw [SymbolTable.get?_set found] at reached
      obtain ⟨inst, earlier, rfl⟩ := unused
      exact ⟨inst, recoveryBuf, (Option.some.inj reached).symm⟩
    · rw [SymbolTable.get?_set_ne own] at reached
      exact idle.unused symbol next reached

private theorem dispatch_idle (idle : Idle work) (frame : FuturesFrame) {msg : NormalizedMessage}
    (announces : msg.header.messageType = msg.messageType) : Idle (dispatch frame msg work) := by
  cases msg with
  | bookDelta bd => exact (onBookDelta_idle idle frame bd).1
  | bestBidOffer m => exact (idle.offer (announces ▸ .inl (.inl rfl))).beat _
  | trade m => exact (idle.offer (announces ▸ .inl (.inr (.inl rfl)))).beat _
  | markPrice m => exact (idle.offer (announces ▸ .inl (.inr (.inr (.inl rfl))))).beat _
  | fundingRate m => exact (idle.offer (announces ▸ .inl (.inr (.inr (.inr (.inl rfl)))))).beat _
  | liquidation m => exact (idle.offer (announces ▸ .inl (.inr (.inr (.inr (.inr rfl)))))).beat _
  | _ => exact idle.beat _

private theorem foldl_idle (idle : Idle work) (frame : FuturesFrame) {msgs : List NormalizedMessage}
    (announce : ∀ msg ∈ msgs, msg.header.messageType = msg.messageType) :
    Idle (msgs.foldl (fun work msg => dispatch frame msg work) work) := by
  induction msgs generalizing work with
  | nil => exact idle
  | cons msg rest ih =>
    obtain ⟨first, others⟩ := List.forall_mem_cons.mp announce
    exact ih (dispatch_idle idle frame first) others

private theorem onFrame_idle (idle : Idle work) (frame : FuturesFrame) : Idle
    (onFrame frame work) := by
  rw [onFrame]
  cases (symbolFromFuturesEvent frame.symbol frame.event).bind work.state.engine.get? with
  | none => exact idle
  | some state =>
    cases ran : (Futures.normalizeFuturesEvent frame.event state.inst work.state.ctx
      frame.recvTs).run.run work.state.outbox.seq with | mk result seq =>
    have counted : Idle (work.update fun s => { s with outbox := { s.outbox with seq } }) :=
      idle.update rfl
    simp only [ran]
    cases result with
    | error f =>
      cases f with
      | returned e => exact counted
      | panicked => exact counted.update rfl
    | ok msgs =>
      exact foldl_idle counted frame fun msg member =>
        (Futures.normalized_messages ran member).1.announces

private theorem handle_idle (idle : Idle work) (frame : FuturesFrame) : Idle
    (handle frame work) := by
  rw [handle]
  split
  · exact onFrame_idle idle frame
  · exact idle

/-- A frame with a depth event leads to no fragment, not even to a heartbeat. -/
theorem onFrame_depth (idle : Idle work) {frame : FuturesFrame}
    {du : Futures.FuturesDepthUpdate} (depth : frame.event = .depthUpdate du) :
    (onFrame frame work).effects = work.effects := by
  rw [onFrame]
  cases (symbolFromFuturesEvent frame.symbol frame.event).bind work.state.engine.get? with
  | none => rfl
  | some state =>
    simp only [depth, Futures.run_depthUpdate]
    cases Futures.normalizeDepthUpdate du state.inst work.state.ctx frame.recvTs
        work.state.outbox.seq with
    | error f =>
      cases f with
      | returned e => rfl
      | panicked => rfl
    | ok bd =>
      have counted : Idle (work.update fun s =>
          { s with outbox := { s.outbox with seq := work.state.outbox.seq + 1 } }) :=
        idle.update rfl
      exact (onBookDelta_idle counted frame bd).2

private theorem run_idle {shard : FuturesShard} (idle : Idle ⟨shard, []⟩)
    (frames : List FuturesFrame) :
    Idle ⟨machine.final shard frames, machine.effects shard frames⟩ := by
  induction frames generalizing shard with
  | nil => exact idle
  | cons frame rest ih =>
    have step := handle_idle idle frame
    have still : Idle ⟨machine.next shard frame, []⟩ := ⟨step.unused, by simp⟩
    refine ⟨(ih still).unused, ?_⟩
    exact List.forall_mem_append.mpr ⟨step.bookless, (ih still).bookless⟩

/-- Along every run of a shard from its start all books stay empty, nothing of a book is published
and depth events lead to no fragment. -/
theorem books_stay_empty (shardId : UInt32) (insts : List InstrumentDefinition) (now : Int64)
    (frames : List FuturesFrame) :
    let engine := FuturesShardEngine.ofInsts shardId insts
    let last := machine.final (start engine now).state frames
    (∀ symbol state, last.engine.get? symbol = some state → Unused state) ∧
    (∀ fragment ∈ fragments engine now frames, Bookless fragment) ∧
    ∀ frame du, frame.event = .depthUpdate du → machine.answer last frame = [] := by
  intro engine last
  have started : Idle (start engine now) := start_idle shardId insts now
  have idle : Idle ⟨(start engine now).state, []⟩ := ⟨started.unused, by simp⟩
  have ran := run_idle idle frames
  refine ⟨ran.unused, List.forall_mem_append.mpr ⟨started.bookless, ran.bookless⟩, ?_⟩
  intro frame du depth
  have silent : Idle ⟨last, []⟩ := ⟨ran.unused, by simp⟩
  change (handle frame ⟨last, []⟩).effects = []
  rw [handle]
  split
  · exact onFrame_depth silent depth
  · rfl

end FuturesShard

end TradingConnectivity.Shard
