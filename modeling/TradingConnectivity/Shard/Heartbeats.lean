import TradingConnectivity.Shard.Fragments

/-! # The heartbeats of a shard

Whatever else a shard publishes, the heartbeats among its fragments are those of its timer, asked at
every tick of the loop (`pulses_run`): they are at least a second apart, and a tick never leaves the
last one a second old (`heartbeats_paced`).
-/

namespace TradingConnectivity.Shard

open Codec ConnectorCore Normalize
open NormalizedMessage (fromBytes)
open Publisher (Heartbeater)

/-- The time in a heartbeat. -/
def pulse (fragment : List UInt8) : Option Int64 :=
  match fromBytes fragment with
  | .ok (.heartbeat m) => some m.header.localRecvTs
  | .ok _ | .error _ => none

private theorem pulse_of_front {header : MessageHeader} {fragment : List UInt8}
    (front : header.wire <+: fragment) (other : header.messageType ≠ .heartbeat) :
    pulse fragment = none := by
  rw [pulse]
  cases decodes : fromBytes fragment with
  | error e => rfl
  | ok m =>
    have kind := NormalizedMessage.messageType_of_fromBytes front decodes
    cases m with
    | heartbeat m => exact absurd kind.symm other
    | _ => rfl

private theorem BeginsControl.pulse_eq {fragment : List UInt8} (begins : BeginsControl fragment) :
    pulse fragment = none := by
  obtain ⟨header, control, front, kind⟩ := begins
  refine pulse_of_front front ?_
  rw [kind]
  cases control <;> simp [Control.messageType]

/-- A heartbeat fits into a large buffer. -/
theorem offerNext_heartbeat {out : Work Outbox (List UInt8)}
    (room : 8192 ≤ out.state.encodeBuf.length) (ctx : NormalizeCtx) (now : Int64) :
    ∃ fragment, pulse fragment = some now ∧
      (Outbox.offerNext (fun seq => .heartbeat ⟨shardHdr .heartbeat ctx seq now⟩) out).effects =
        out.effects ++ [fragment] := by
  have wellFormed : (NormalizedMessage.heartbeat
      ⟨shardHdr .heartbeat ctx (out.state.seq + 1) now⟩).WellFormed :=
    ⟨rfl, by simp [NormalizedMessage.strings], by simp [NormalizedMessage.levelLists]⟩
  obtain ⟨bytes, transmits⟩ := NormalizedMessage.transmits wellFormed
  have size := NormalizedMessage.length_of_writes transmits rfl .pure
  have fits : bytes.length ≤ out.state.encodeBuf.length := by
    simp [headerSize] at size
    omega
  have decodes := transmits.decodes []
  rw [List.append_nil] at decodes
  refine ⟨bytes, ?_, ?_⟩
  · rw [pulse, decodes]
    rfl
  · rw [Outbox.offerNext, @Outbox.offer_of_transmits
      (out.update ({ · with seq := out.state.seq + 1 })) _ _ transmits fits]
    rfl

namespace SpotShard

/-- The timer of a shard with the heartbeats so far. -/
def pace (work : Work SpotShard (List UInt8)) : Work Heartbeater Int64 :=
  ⟨work.state.heartbeater, work.effects.filterMap pulse⟩

variable {work : Work SpotShard (List UInt8)}

/-- The announcements of a symbol are no heartbeats, nor is what they leave in the buffer. -/
theorem pace_handleSymbol (ready : work.state.Ready) (other : String) (input : SymbolInput) :
    pace (handleSymbol other input work) = pace work ∧
      ((handleSymbol other input work).state.outbox.encodeBuf = work.state.outbox.encodeBuf ∨
        BeginsControl (handleSymbol other input work).state.outbox.encodeBuf) := by
  rw [handleSymbol]
  cases found : work.state.engine.get? other with
  | none => exact ⟨rfl, .inl rfl⟩
  | some old =>
    simp only
    generalize SymbolState.handle input ⟨old, []⟩ = handled
    obtain ⟨fragments, added, controls, last⟩ := @Outbox.performAll_announces old.inst
      (outboxWork work) work.state.ctx ready.room (ready.short found) handled.effects
    constructor
    · have silent : fragments.filterMap pulse = [] :=
        List.filterMap_eq_nil_iff.mpr fun f member => (controls f member).pulse_eq
      have total : (Outbox.performAll work.state.ctx old.inst handled.effects
          (outboxWork work)).effects.filterMap pulse = work.effects.filterMap pulse := by
        rw [added, List.filterMap_append, silent, List.append_nil]
        rfl
      exact Work.ext rfl total
    · by_cases shown : ∃ e ∈ handled.effects, e.isAnnouncement
      · exact .inr (last (.inr shown))
      · have silent : ∀ e ∈ handled.effects, ¬e.isAnnouncement := fun e member announced =>
          shown ⟨e, member, announced⟩
        have same := Outbox.performAll_of_silent work.state.ctx old.inst silent (outboxWork work)
        exact .inl (congrArg (·.state.encodeBuf) same)

private theorem pace_emit {fragment : List UInt8} (silent : pulse fragment = none) :
    pace (work.emit fragment) = pace work := by
  refine Work.ext rfl ?_
  change (work.effects ++ [fragment]).filterMap pulse = work.effects.filterMap pulse
  rw [List.filterMap_append, List.filterMap_cons_none silent, List.filterMap_nil, List.append_nil]

private theorem pace_onMessage (ready : work.state.Ready) (other : String) {msg : NormalizedMessage}
    (data : Spot.IsData msg.header.messageType) (recvTs now : Int64)
    (fetched : Option MarketData.BookSnapshot) :
    pace (onMessage other msg recvTs now fetched work) = pace work := by
  have size := msg.length_encodeInto work.state.outbox.encodeBuf
  rw [onMessage]
  cases ran : msg.encodeInto work.state.outbox.encodeBuf with | mk result encodeBuf =>
  rw [ran] at size
  cases result with
  | error e => rfl
  | ok encodedLen =>
    obtain ⟨-, enough, front⟩ := NormalizedMessage.enough_of_encodeInto ran
    have another : msg.header.messageType ≠ .heartbeat := by
      rcases data with kind | kind | kind <;> simp [kind]
    have cut : msg.header.wire <+: encodeBuf.take encodedLen :=
      List.prefix_take_iff.mpr ⟨front, by rwa [msg.header.length_wire]⟩
    have own := pulse_of_front cut another
    simp only
    cases symbolInput msg encodedLen recvTs now fetched with
    | none => exact pace_emit own
    | some input =>
      have still : (work.update fun s =>
          { s with outbox := { s.outbox with encodeBuf } }).state.Ready :=
        ready_update ready (size ▸ ready.room) rfl
      obtain ⟨kept, buffer⟩ := pace_handleSymbol still other input
      refine (pace_emit ?_).trans kept
      rcases buffer with same | begins
      · rw [same]
        exact own
      · exact (begins.take enough).pulse_eq

private theorem pace_onFrame (ready : work.state.Ready) (other : String) (event : Spot.SpotEvent)
    (recvTs now : Int64) (fetched : Option MarketData.BookSnapshot) :
    pace (onFrame other event recvTs now fetched work) = pace work := by
  have step := onFrame_step other event recvTs now fetched work
  generalize onFrame other event recvTs now fetched work = next at step ⊢
  cases step with
  | unheard => rfl
  | silent seq running counted => rfl
  | message seq msg counted data number =>
    have still : (work.update fun s => { s with outbox := { s.outbox with seq } }).state.Ready :=
      ready_update ready ready.room rfl
    exact pace_onMessage still other data recvTs now fetched

private theorem pace_foldl (ready : work.state.Ready) (symbols : List String)
    (input : String → SymbolInput) :
    pace (symbols.foldl (fun work other => handleSymbol other (input other) work) work) =
      pace work :=
  (foldl_handleSymbol (P := fun later => pace later = pace work) (fun ready other input same =>
    (pace_handleSymbol ready other input).1.trans same) ready rfl symbols input).2

/-- The check of the loop is a tick of the timer. -/
private theorem pace_beat (ready : work.state.Ready) (now : Int64) :
    pace (beat now work) = Heartbeater.tick now (pace work) := by
  rw [beat, Heartbeater.tick]
  have same : (pace work).state.isDue now = work.state.heartbeater.isDue now := rfl
  rw [same]
  split
  · obtain ⟨fragment, beats, offered⟩ := @offerNext_heartbeat (outboxWork work) ready.room
      work.state.ctx now
    refine Work.ext rfl ?_
    change (Outbox.offerNext _ (outboxWork work)).effects.filterMap pulse = _
    rw [offered, List.filterMap_append, List.filterMap_cons_some beats, List.filterMap_nil]
    rfl
  · rfl

/-- The time at which an input lets the timer tick. -/
def tickTime (shard : SpotShard) (input : ShardInput) : List Int64 :=
  match input with
  | .tick now _ => if shard.running then [now] else []
  | .frame _ _ _ _ _ | .validationTick _ _ => []

/-- A timer that ticks at certain times. -/
def ticked (timer : Heartbeater) (times : List Int64) : Work Heartbeater Int64 :=
  ⟨Heartbeater.machine.final timer times, Heartbeater.machine.effects timer times⟩

private theorem pace_handle {shard : SpotShard} (ready : shard.Ready) (input : ShardInput) :
    pace (handle input ⟨shard, []⟩) = ticked shard.heartbeater (tickTime shard input) := by
  have begin : (⟨shard, []⟩ : Work SpotShard (List UInt8)).state.Ready := ready
  unfold handle
  cases input with
  | frame other event recvTs now fetched =>
    split
    · exact pace_onFrame begin other event recvTs now fetched
    · rfl
  | validationTick now fetched =>
    split
    · exact pace_foldl begin shard.engine.symbols.keys
        fun other => .validate (now other) (fetched other)
    · rfl
  | tick now fetched =>
    rw [tickTime]
    by_cases running : shard.running = true
    · rw [if_pos running, if_pos running]
      have retried := ready_foldl begin shard.engine.symbols.keys
        fun other => .retry now (fetched other)
      have kept := pace_foldl begin shard.engine.symbols.keys
        fun other => .retry now (fetched other)
      refine (pace_beat retried now).trans ?_
      rw [kept]
      exact Work.ext rfl (List.append_nil _).symm
    · rw [if_neg running, if_neg running]
      rfl

/-- The heartbeats of a run are those of the timer. -/
theorem pulses_run {shard : SpotShard} (ready : shard.Ready) (inputs : List ShardInput) :
    (machine.effects shard inputs).filterMap pulse =
      Heartbeater.machine.effects shard.heartbeater (machine.log tickTime shard inputs) := by
  induction inputs generalizing shard with
  | nil => rfl
  | cons input rest ih =>
    have begin : (⟨shard, []⟩ : Work SpotShard (List UInt8)).state.Ready := ready
    have step := pace_handle ready input
    have timer : (machine.next shard input).heartbeater =
        Heartbeater.machine.final shard.heartbeater (tickTime shard input) :=
      congrArg Work.state step
    have beats : (machine.answer shard input).filterMap pulse =
        Heartbeater.machine.effects shard.heartbeater (tickTime shard input) :=
      congrArg Work.effects step
    have later := ih (ready_handle begin input)
    change (machine.effects (machine.next shard input) rest).filterMap pulse =
      Heartbeater.machine.effects (machine.next shard input).heartbeater _ at later
    rw [Machine.effects_cons, List.filterMap_append, beats, later, timer, Machine.log_cons,
      Machine.effects_append]
    rfl

/-- Along a run of a shard the heartbeats it publishes are at least an interval apart, and when a
tick is over, the last one is younger than the interval. -/
theorem heartbeats_paced {shard : SpotShard} (ready : shard.Ready) (inputs : List ShardInput) :
    let interval := shard.heartbeater.intervalNs
    (shard.heartbeater.lastBeatNs :: (machine.effects shard inputs).filterMap pulse).IsChain
        (Heartbeater.Apart interval) ∧
      ∀ now fetched, (machine.final shard inputs).running →
        now.toInt < (((machine.effects shard (inputs ++ [.tick now fetched])).filterMap
          pulse).getLastD shard.heartbeater.lastBeatNs).toInt + interval.toInt := by
  intro interval
  obtain ⟨apart, young⟩ := shard.heartbeater.beats_paced (machine.log tickTime shard inputs)
  refine ⟨?_, fun now fetched running => ?_⟩
  · rwa [pulses_run ready]
  · have times : machine.log tickTime shard (inputs ++ [.tick now fetched]) =
        machine.log tickTime shard inputs ++ [now] := by
      rw [Machine.log_append, Machine.log_cons, tickTime, if_pos running]
      rfl
    rw [pulses_run ready, times]
    exact young now

theorem heartbeats_paced_two :
    let shard := start (.ofInsts 0 twoInsts)
    (shard.heartbeater.lastBeatNs :: (machine.effects shard twoStreams).filterMap pulse).IsChain
        (Heartbeater.Apart shard.heartbeater.intervalNs) ∧
      ∀ now fetched, (machine.final shard twoStreams).running →
        now.toInt < (((machine.effects shard (twoStreams ++ [.tick now fetched])).filterMap
          pulse).getLastD shard.heartbeater.lastBeatNs).toInt +
            shard.heartbeater.intervalNs.toInt :=
  heartbeats_paced (ready_start (by decide)) twoStreams

end SpotShard

end TradingConnectivity.Shard
