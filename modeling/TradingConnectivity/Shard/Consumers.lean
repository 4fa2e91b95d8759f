import TradingConnectivity.Normalize.SpotHeaders
import TradingConnectivity.Shard.SpotShard

/-! # What the consumers of a shard know

The symbols of a shard share its outbox, and their messages are interleaved in it. A consumer of one
symbol nevertheless knows at every moment whether its book is stale and in which state its feed is
(`consumers_informed`), although the shard repeats messages and offers parts of old ones.
-/

namespace TradingConnectivity.Shard

open ConnectorCore Normalize

namespace SymbolState

private theorem inst_setFeedState (new : FeedState) (ts : Int64) (work : Work SymbolState Effect) :
    (setFeedState new ts work).state.inst = work.state.inst := by
  rw [setFeedState]
  split <;> rfl

/-- Handling an input never changes the instrument. -/
theorem inst_handle (input : SymbolInput) (state : SymbolState) :
    (handle input ⟨state, []⟩).state.inst = state.inst := by
  have kept : ∀ work next : Work SymbolState Effect, Move input work next →
      work.state.inst = state.inst → next.state.inst = state.inst := by
    intro work next move same
    cases move with
    | feed ts reason => exact (inst_setFeedState ..).trans same
    | recovered now stale fetched succeeded => exact (inst_setFeedState ..).trans same
    | gap | stale | fetch | compare | replayed | check | failure | compared | push | clear | seed
    | apply | skip => exact same
  exact Work.invariant_of_moves kept (moves_handle input ⟨state, []⟩) rfl

end SymbolState

namespace SpotShard

/-- The buffer has room for control messages, and the names of the instruments are short. -/
structure Ready (shard : SpotShard) : Prop where
  room : 8192 ≤ shard.outbox.encodeBuf.length
  short : ∀ {symbol state}, shard.engine.get? symbol = some state →
    state.inst.symbol.utf8ByteSize ≤ 8000

/-- A shard starts ready if its instruments have short names. -/
theorem ready_start {shardId : UInt32} {insts : List InstrumentDefinition}
    (short : ∀ inst ∈ insts, inst.symbol.utf8ByteSize ≤ 8000) :
    (start (.ofInsts shardId insts)).Ready where
  room := by
    rw [start, List.length_replicate]
  short := by
    intro symbol state found
    obtain ⟨inst, member, -, rfl⟩ := SymbolTable.get?_ofInsts found
    exact short inst member

/-- No symbol but this one has the instrument id. -/
def Alone (symbol : String) (id : UInt32) (shard : SpotShard) : Prop :=
  ∀ other state, shard.engine.get? other = some state → state.inst.header.instrumentId = id →
    other = symbol

/-- The symbols of a starting shard are alone if its instruments have ids of their own. -/
theorem alone_start {shardId : UInt32} {insts : List InstrumentDefinition} {symbol : String}
    {state : SymbolState} (distinct : (insts.map (·.header.instrumentId)).Nodup)
    (found : (start (.ofInsts shardId insts)).engine.get? symbol = some state) :
    Alone symbol state.inst.header.instrumentId (start (.ofInsts shardId insts)) := by
  intro other state' found' ids
  obtain ⟨inst, member, rfl, rfl⟩ := SymbolTable.get?_ofInsts found
  obtain ⟨inst', member', rfl, rfl⟩ := SymbolTable.get?_ofInsts found'
  exact congrArg _ (List.inj_on_of_nodup_map distinct member' member ids)

/-- Only the buffer and the instruments matter. -/
private theorem Ready.of_insts {shard next : SpotShard} (ready : shard.Ready)
    (room : 8192 ≤ next.outbox.encodeBuf.length)
    (insts : ∀ {symbol state}, next.engine.get? symbol = some state →
      ∃ old, shard.engine.get? symbol = some old ∧ state.inst = old.inst) : next.Ready where
  room := room
  short := by
    intro symbol state found
    obtain ⟨old, before, same⟩ := insts found
    rw [same]
    exact ready.short before

variable {work : Work SpotShard (List UInt8)} {symbol other : String} {id : UInt32} {before : Shown}

/-- The outbox with what has been offered so far. -/
def outboxWork (work : Work SpotShard (List UInt8)) : Work Outbox (List UInt8) :=
  ⟨work.state.outbox, work.effects⟩

/-- What a shard does with a frame. It may be of another stream or symbol; otherwise the counter
advances by one at most, and the shard may end. A message of the frame has the number under the
counter, and is market data. -/
inductive FrameStep (other : String) (recvTs now : Int64) (fetched : Option MarketData.BookSnapshot)
    (work : Work SpotShard (List UInt8)) : Work SpotShard (List UInt8) → Prop
  | unheard : FrameStep other recvTs now fetched work work
  | silent (seq : UInt64) (running : Bool)
      (counted : seq = work.state.outbox.seq ∨ seq = work.state.outbox.seq + 1) :
      FrameStep other recvTs now fetched work
        (work.update fun s => { s with outbox := { s.outbox with seq }, running })
  | message (seq : UInt64) (msg : NormalizedMessage)
      (counted : seq = work.state.outbox.seq ∨ seq = work.state.outbox.seq + 1)
      (data : Spot.IsData msg.header.messageType)
      (number : msg.header.sequenceNumber = work.state.outbox.seq) :
      FrameStep other recvTs now fetched work (onMessage other msg recvTs now fetched
        (work.update fun s => { s with outbox := { s.outbox with seq } }))

theorem onFrame_step (other : String) (event : Spot.SpotEvent) (recvTs now : Int64)
    (fetched : Option MarketData.BookSnapshot) (work : Work SpotShard (List UInt8)) :
    FrameStep other recvTs now fetched work (onFrame other event recvTs now fetched work) := by
  rw [onFrame]
  cases (symbolFromEvent other event).bind work.state.engine.get? with
  | none => exact .unheard
  | some state =>
    cases ran : (Spot.normalizeSpotEvent event state.inst work.state.ctx recvTs).run.run
      work.state.outbox.seq with | mk result seq =>
    have counted := Spot.normalized_next ran
    simp only [ran]
    cases result with
    | error f =>
      cases f with
      | returned e => exact .silent seq work.state.running counted
      | panicked => exact .silent seq false counted
    | ok message =>
      cases message with
      | none => exact .silent seq work.state.running counted
      | some msg =>
        obtain ⟨-, data, eventTs, announced⟩ := Spot.normalized_header ran
        have own : msg.header.messageType = msg.messageType := by rw [announced]; rfl
        have number : msg.header.sequenceNumber = work.state.outbox.seq := by rw [announced]; rfl
        exact .message seq msg counted (own ▸ data) number

/-! ### A shard stays ready -/

theorem ready_update (ready : work.state.Ready) {change : SpotShard → SpotShard}
    (room : 8192 ≤ (change work.state).outbox.encodeBuf.length)
    (engine : (change work.state).engine = work.state.engine) :
    (work.update change).state.Ready :=
  ready.of_insts room fun found => ⟨_, engine ▸ found, rfl⟩

/-- A symbol that handles an input keeps the instruments of the shard. -/
theorem inst_handleSymbol {input : SymbolInput} {key : String} {state : SymbolState}
    (held : (handleSymbol other input work).state.engine.get? key = some state) :
    ∃ old, work.state.engine.get? key = some old ∧ state.inst = old.inst := by
  rw [handleSymbol] at held
  cases found : work.state.engine.get? other with
  | none =>
    rw [found] at held
    exact ⟨state, held, rfl⟩
  | some old =>
    rw [found] at held
    change (work.state.engine.set other _).get? key = some state at held
    by_cases same : key = other
    · subst same
      rw [SymbolTable.get?_set found] at held
      exact ⟨old, found, by rw [← Option.some.inj held, SymbolState.inst_handle]⟩
    · rw [SymbolTable.get?_set_ne same] at held
      exact ⟨state, held, rfl⟩

private theorem ready_handleSymbol (ready : work.state.Ready) (other : String)
    (input : SymbolInput) :
    (handleSymbol other input work).state.Ready := by
  refine ready.of_insts ?_ inst_handleSymbol
  rw [handleSymbol]
  cases found : work.state.engine.get? other with
  | none => exact ready.room
  | some old =>
    obtain ⟨-, room, -⟩ := @Outbox.told_performAll 0 work.state.ctx old.inst (outboxWork work)
      old.shown ready.room (ready.short found) (SymbolState.handle input ⟨old, []⟩).effects
    exact room

private theorem ready_onMessage (ready : work.state.Ready) (other : String)
    (msg : NormalizedMessage)
    (recvTs now : Int64) (fetched : Option MarketData.BookSnapshot) :
    (onMessage other msg recvTs now fetched work).state.Ready := by
  have size := msg.length_encodeInto work.state.outbox.encodeBuf
  rw [onMessage]
  cases ran : msg.encodeInto work.state.outbox.encodeBuf with | mk result encodeBuf =>
  rw [ran] at size
  have encoded : (work.update fun s =>
      { s with outbox := { s.outbox with encodeBuf } }).state.Ready :=
    ready_update ready (size ▸ ready.room) rfl
  cases result with
  | error e => exact encoded
  | ok encodedLen =>
    simp only
    cases symbolInput msg encodedLen recvTs now fetched with
    | none => exact encoded
    | some input => exact ready_handleSymbol encoded other input

private theorem ready_onFrame (ready : work.state.Ready) (other : String) (event : Spot.SpotEvent)
    (recvTs now : Int64) (fetched : Option MarketData.BookSnapshot) :
    (onFrame other event recvTs now fetched work).state.Ready := by
  have step := onFrame_step other event recvTs now fetched work
  generalize onFrame other event recvTs now fetched work = next at step ⊢
  cases step with
  | unheard => exact ready
  | silent seq running counted => exact ready_update ready ready.room rfl
  | message seq msg counted data number =>
    exact ready_onMessage (ready_update ready ready.room rfl) other msg recvTs now fetched

/-- What a symbol of a ready shard keeps when it handles an input is kept when the symbols handle
their inputs one after another. -/
theorem foldl_handleSymbol {P : Work SpotShard (List UInt8) → Prop}
    (step : ∀ {work : Work SpotShard (List UInt8)}, work.state.Ready →
      ∀ (other : String) (input : SymbolInput), P work → P (handleSymbol other input work))
    (ready : work.state.Ready) (begins : P work) (symbols : List String)
    (input : String → SymbolInput) :
    (symbols.foldl (fun work other => handleSymbol other (input other) work) work).state.Ready ∧
      P (symbols.foldl (fun work other => handleSymbol other (input other) work) work) := by
  apply List.foldlRecOn (motive := fun work : Work SpotShard (List UInt8) =>
    work.state.Ready ∧ P work)
  · exact ⟨ready, begins⟩
  · rintro work ⟨ready, holds⟩ other -
    exact ⟨ready_handleSymbol ready other (input other), step ready other (input other) holds⟩

theorem ready_foldl (ready : work.state.Ready) (symbols : List String)
    (input : String → SymbolInput) :
    (symbols.foldl (fun work other => handleSymbol other (input other) work) work).state.Ready :=
  (foldl_handleSymbol (P := fun _ => True) (fun _ _ _ _ => trivial) ready trivial symbols input).1

private theorem ready_beat (ready : work.state.Ready) (now : Int64) :
    (beat now work).state.Ready := by
  rw [beat]
  split
  · refine ready.of_insts ?_ fun found => ⟨_, found, rfl⟩
    obtain ⟨-, size⟩ := @Outbox.told_offer 0
      ((outboxWork work).update ({ · with seq := work.state.outbox.seq + 1 }))
      (.heartbeat ⟨shardHdr .heartbeat work.state.ctx (work.state.outbox.seq + 1) now⟩)
      (by decide : Quiet .heartbeat) ⟨false, .connecting⟩
    exact size ▸ ready.room
  · exact ready

/-- Every input leaves a ready shard ready. -/
theorem ready_handle (ready : work.state.Ready) (input : ShardInput) :
    (handle input work).state.Ready := by
  unfold handle
  split
  · cases input with
    | frame other event recvTs now fetched =>
      exact ready_onFrame ready other event recvTs now fetched
    | tick now fetched =>
      have retried := ready_foldl ready work.state.engine.symbols.keys
        fun other => .retry now (fetched other)
      exact ready_beat retried now
    | validationTick now fetched =>
      exact ready_foldl ready work.state.engine.symbols.keys
        fun other => .validate (now other) (fetched other)
  · exact ready

/-! ### Its consumers stay informed -/

/-- The consumers of a symbol have been told what there is to know, and its id is its own. -/
structure Informed (symbol : String) (id : UInt32) (before : Shown)
    (work : Work SpotShard (List UInt8)) : Prop where
  told : ∃ state, work.state.engine.get? symbol = some state ∧
    state.inst.header.instrumentId = id ∧ Outbox.told id before (outboxWork work) = state.shown
  alone : Alone symbol id work.state

/-- A symbol that handles an input tells its own consumers, and no others. -/
theorem informed_handleSymbol (ready : work.state.Ready) (informed : Informed symbol id before work)
    (other : String) (input : SymbolInput) :
    Informed symbol id before (handleSymbol other input work) ∧
      (Outbox.Silent id before (outboxWork work) →
        Outbox.Silent id before (outboxWork (handleSymbol other input work))) := by
  have alone : Alone symbol id (handleSymbol other input work).state := by
    intro key state held own
    obtain ⟨old, before, same⟩ := inst_handleSymbol held
    exact informed.alone key old before (same ▸ own)
  rw [handleSymbol] at alone ⊢
  cases found : work.state.engine.get? other with
  | none => exact ⟨informed, fun silent => silent⟩
  | some old =>
    rw [found] at alone
    obtain ⟨news, -, silent⟩ := @Outbox.told_performAll id work.state.ctx old.inst
      (outboxWork work) before ready.room (ready.short found)
      (SymbolState.handle input ⟨old, []⟩).effects
    refine ⟨⟨?_, alone⟩, silent⟩
    obtain ⟨state, here, own, told⟩ := informed.told
    by_cases same : symbol = other
    · subst same
      obtain rfl := Option.some.inj (here.symm.trans found)
      have inst := SymbolState.inst_handle input state
      have shown := SymbolState.announced_handle input state
      rw [if_pos own, told] at news
      exact ⟨_, SymbolTable.get?_set found _, (congrArg (·.header.instrumentId) inst).trans own,
        news.trans shown⟩
    · have others : old.inst.header.instrumentId ≠ id := fun clash =>
        same (informed.alone other old found clash).symm
      rw [if_neg others] at news
      exact ⟨state, (SymbolTable.get?_set_ne same _).trans here, own, news.trans told⟩

/-- What has been told does not depend on the rest of the shard. -/
private theorem informed_update (informed : Informed symbol id before work)
    {change : SpotShard → SpotShard}
    (engine : (change work.state).engine = work.state.engine) :
    Informed symbol id before (work.update change) := by
  obtain ⟨⟨state, here, own, told⟩, alone⟩ := informed
  refine ⟨⟨state, by rwa [Work.update_state, engine], own, told⟩, fun other state found => ?_⟩
  rw [Work.update_state, engine] at found
  exact alone other state found

/-- A fragment that tells nothing new. -/
private theorem informed_emit (informed : Informed symbol id before work) {fragment : List UInt8}
    (silent : (Outbox.told id before (outboxWork work)).receive id fragment =
      Outbox.told id before (outboxWork work)) :
    Informed symbol id before (work.emit fragment) := by
  obtain ⟨⟨state, here, own, told⟩, alone⟩ := informed
  refine ⟨⟨state, here, own, ?_⟩, alone⟩
  have same : outboxWork (work.emit fragment) = (outboxWork work).emit fragment := rfl
  rw [same, Outbox.told_emit, silent, told]

private theorem quiet_of_isData {kind : MessageType} (data : Spot.IsData kind) : Quiet kind := by
  rcases data with rfl | rfl | rfl <;> decide

/-- Whatever stands in the buffer when a frame is offered, the consumers know it already. -/
theorem informed_onMessage (ready : work.state.Ready) (informed : Informed symbol id before work)
    (other : String) {msg : NormalizedMessage} (data : Spot.IsData msg.header.messageType)
    (recvTs now : Int64) (fetched : Option MarketData.BookSnapshot) :
    Informed symbol id before (onMessage other msg recvTs now fetched work) := by
  have size := msg.length_encodeInto work.state.outbox.encodeBuf
  rw [onMessage]
  cases ran : msg.encodeInto work.state.outbox.encodeBuf with | mk result encodeBuf =>
  rw [ran] at size
  have encoded : Informed symbol id before
      (work.update fun s => { s with outbox := { s.outbox with encodeBuf } }) :=
    informed_update informed rfl
  cases result with
  | error e => exact encoded
  | ok encodedLen =>
    obtain ⟨-, -, front⟩ := NormalizedMessage.enough_of_encodeInto ran
    have silent : Outbox.Silent id before
        (outboxWork (work.update fun s => { s with outbox := { s.outbox with encodeBuf } })) :=
      Outbox.silent_of_header front (quiet_of_isData data) before
    simp only
    cases symbolInput msg encodedLen recvTs now fetched with
    | none => exact informed_emit encoded (silent encodedLen)
    | some input =>
      have still : (work.update fun s =>
          { s with outbox := { s.outbox with encodeBuf } }).state.Ready :=
        ready_update ready (size ▸ ready.room) rfl
      obtain ⟨handled, quiet⟩ := informed_handleSymbol still encoded other input
      exact informed_emit handled (quiet silent encodedLen)

private theorem informed_onFrame (ready : work.state.Ready)
    (informed : Informed symbol id before work)
    (other : String) (event : Spot.SpotEvent) (recvTs now : Int64)
    (fetched : Option MarketData.BookSnapshot) :
    Informed symbol id before (onFrame other event recvTs now fetched work) := by
  have step := onFrame_step other event recvTs now fetched work
  generalize onFrame other event recvTs now fetched work = next at step ⊢
  cases step with
  | unheard => exact informed
  | silent seq running counted => exact informed_update informed rfl
  | message seq msg counted data number =>
    have still : (work.update fun s => { s with outbox := { s.outbox with seq } }).state.Ready :=
      ready_update ready ready.room rfl
    exact informed_onMessage still (informed_update informed rfl) other data recvTs now fetched

private theorem informed_foldl (ready : work.state.Ready)
    (informed : Informed symbol id before work)
    (symbols : List String) (input : String → SymbolInput) :
    Informed symbol id before
      (symbols.foldl (fun work other => handleSymbol other (input other) work) work) :=
  (foldl_handleSymbol (fun ready other input informed =>
    (informed_handleSymbol ready informed other input).1) ready informed symbols input).2

private theorem informed_beat (informed : Informed symbol id before work) (now : Int64) :
    Informed symbol id before (beat now work) := by
  rw [beat]
  split
  · obtain ⟨news, -⟩ := @Outbox.told_offer id
      ((outboxWork work).update ({ · with seq := work.state.outbox.seq + 1 }))
      (.heartbeat ⟨shardHdr .heartbeat work.state.ctx (work.state.outbox.seq + 1) now⟩)
      (by decide : Quiet .heartbeat) before
    obtain ⟨⟨state, here, own, told⟩, alone⟩ := informed
    exact ⟨⟨state, here, own, news.trans told⟩, alone⟩
  · exact informed

private theorem informed_handle (ready : work.state.Ready)
    (informed : Informed symbol id before work)
    (input : ShardInput) : Informed symbol id before (handle input work) := by
  unfold handle
  split
  · cases input with
    | frame other event recvTs now fetched =>
      exact informed_onFrame ready informed other event recvTs now fetched
    | tick now fetched =>
      have retried := informed_foldl ready informed work.state.engine.symbols.keys
        fun other => .retry now (fetched other)
      exact informed_beat retried now
    | validationTick now fetched =>
      exact informed_foldl ready informed work.state.engine.symbols.keys
        fun other => .validate (now other) (fetched other)
  · exact informed

/-- However the symbols of a shard are interleaved, whatever is repeated and whatever is cut off,
the consumer of a symbol with an instrument id of its own that decodes all fragments knows whether
its book is stale and in which state its feed is. -/
theorem consumers_informed {shard : SpotShard} (ready : shard.Ready) {symbol : String}
    {state : SymbolState} (found : shard.engine.get? symbol = some state)
    (alone : Alone symbol state.inst.header.instrumentId shard) (inputs : List ShardInput) :
    ∃ last, (machine.final shard inputs).engine.get? symbol = some last ∧
      (machine.effects shard inputs).foldl (Shown.receive state.inst.header.instrumentId)
        state.shown = last.shown := by
  induction inputs generalizing shard state with
  | nil => exact ⟨state, found, rfl⟩
  | cons input rest ih =>
    have begin : (⟨shard, []⟩ : Work SpotShard (List UInt8)).state.Ready := ready
    have informed : Informed symbol state.inst.header.instrumentId state.shown ⟨shard, []⟩ :=
      ⟨⟨state, found, rfl, rfl⟩, alone⟩
    obtain ⟨⟨middle, here, own, told⟩, still⟩ := informed_handle begin informed input
    obtain ⟨last, reached, later⟩ := ih (ready_handle begin input) here (own ▸ still)
    refine ⟨last, reached, ?_⟩
    rw [own] at later
    rw [Machine.effects_cons, List.foldl_append, ← later, ← told]
    rfl

def twoInsts : List InstrumentDefinition :=
  [bitcoin .binanceSpot .spot, { bitcoin .binanceSpot .spot with
    symbol := "ETHUSDT"
    header := { (bitcoin .binanceSpot .spot).header with instrumentId := 2 } }]

/-- The events of two symbols, one of which loses some. -/
def twoStreams : List ShardInput :=
  [.frame "BTCUSDT" (.depthUpdate ⟨1, 5, 7, [("96500.10", "1")], []⟩) 0 0 none,
    .frame "ETHUSDT" (.depthUpdate ⟨1, 9, 9, [], []⟩) 1 1 none,
    .frame "BTCUSDT" (.depthUpdate ⟨1, 12, 13, [], []⟩) 2 2 none, .tick 3 fun _ => none]

theorem get?_twoInsts : (start (.ofInsts 0 twoInsts)).engine.get? "BTCUSDT" =
    some (.new (bitcoin .binanceSpot .spot)) := by rfl

theorem consumers_informed_two :
    ∃ last, (machine.final (start (.ofInsts 0 twoInsts)) twoStreams).engine.get? "BTCUSDT" =
        some last ∧
      (machine.effects (start (.ofInsts 0 twoInsts)) twoStreams).foldl
        (Shown.receive (SymbolState.new (bitcoin .binanceSpot .spot)).inst.header.instrumentId)
        (SymbolState.new (bitcoin .binanceSpot .spot)).shown = last.shown :=
  consumers_informed (ready_start (by decide)) get?_twoInsts
    (alone_start (by decide) get?_twoInsts) twoStreams

end SpotShard

end TradingConnectivity.Shard
