import TradingConnectivity.Machine.History
import TradingConnectivity.Replay.Replayer

/-! # Replays do not depend on when they are polled

The draws of the fault injector are made frame by frame, whenever the timing gate lets a frame
through. What a replayer will still hand out is therefore a function of its place in the recording
(`Replayer.forthcoming`), and a poll only moves the front of it to the caller
(`nextFrameAt_conserves`).
-/

namespace TradingConnectivity.Replay

open Machine

/-! ## What is left of a recording -/

/-- The event a poll hands out. -/
def PollResult.event? : PollResult → Option ReplayEvent
  | .ready event => some event
  | _ => none

/-- The events of one frame, in the order they are handed out. -/
def Outcome.events : Outcome → List ReplayEvent
  | .dropped => []
  | .delivered event false => [event]
  | .delivered event true => [event, { event with isDuplicate := true }]

/-- The event that is not a duplicate. -/
def Outcome.original? : Outcome → Option ReplayEvent
  | .dropped => none
  | .delivered event _ => some event

/-- What the counters show once the events of a frame have been handed out. -/
def ReplayStats.count (stats : ReplayStats) : Outcome → ReplayStats
  | .dropped => { stats with framesDropped := stats.framesDropped + 1 }
  | .delivered event duplicated => { stats with
      framesDelivered := stats.framesDelivered + 1
      framesCorrupted := stats.framesCorrupted + event.wasCorrupted.toNat
      framesDuplicated := stats.framesDuplicated + duplicated.toNat }

namespace Replayer

/-- What the fault injector makes of these frames, from the one under the cursor on. -/
def outcomes : List RecordedFrame → Replayer → List Outcome
  | [], _ => []
  | frame :: rest, replayer =>
    (replayer.inject frame).1 :: outcomes rest (replayer.inject frame).2

def prospects (replayer : Replayer) : List Outcome :=
  outcomes (replayer.frames.drop replayer.cursor) replayer

/-- The events still to come. -/
def forthcoming (replayer : Replayer) : List ReplayEvent :=
  replayer.pendingDuplicate.toList ++ replayer.prospects.flatMap Outcome.events

/-- The counters once a pending duplicate is handed out. -/
def settledStats (replayer : Replayer) : ReplayStats :=
  { replayer.stats with
    framesDuplicated := replayer.stats.framesDuplicated + replayer.pendingDuplicate.isSome.toNat }

/-- The counters at the end. -/
def finalStats (replayer : Replayer) : ReplayStats :=
  replayer.prospects.foldl ReplayStats.count replayer.settledStats

/-! ## One frame -/

/-- The part of a replayer that the fault injector depends on. -/
def place (replayer : Replayer) : Replayer :=
  { replayer with startRealNs := none, pendingDuplicate := none, stats := .default }

private theorem place_advanceVirtualClock (replayer : Replayer) (capturedAt : Int64) :
    replayer.place.advanceVirtualClock capturedAt =
      ((replayer.advanceVirtualClock capturedAt).1,
        (replayer.advanceVirtualClock capturedAt).2.place) := by
  simp only [advanceVirtualClock, place]
  split <;> rfl

private theorem place_inject (replayer : Replayer) (frame : RecordedFrame) :
    (replayer.place.inject frame).1 = (replayer.inject frame).1 ∧
      (replayer.place.inject frame).2.place = (replayer.inject frame).2.place := by
  have percents : replayer.place.faultPercents = replayer.faultPercents := rfl
  have prng : replayer.place.prng = replayer.prng := rfl
  simp only [inject, place_advanceVirtualClock, percents, prng]
  split
  · exact ⟨rfl, rfl⟩
  · exact ⟨rfl, rfl⟩

theorem outcomes_congr {frames : List RecordedFrame} {first second : Replayer}
    (same : first.place = second.place) : outcomes frames first = outcomes frames second := by
  induction frames generalizing first second with
  | nil => rfl
  | cons frame rest ih =>
    obtain ⟨outcome, later⟩ := first.place_inject frame
    obtain ⟨outcome', later'⟩ := second.place_inject frame
    rw [same] at outcome later
    rw [outcomes, outcomes, ← outcome, ← outcome', ih (later.symm.trans later')]

/-- Only the place changes the prospects. -/
theorem prospects_congr {first second : Replayer} (same : first.place = second.place) :
    first.prospects = second.prospects := by
  calc first.prospects
      = outcomes (first.place.frames.drop first.place.cursor) first := rfl
    _ = outcomes (second.place.frames.drop second.place.cursor) second := by
        rw [same, outcomes_congr same]

/-- The timing gate changes nothing but the start of the clock. -/
theorem timingWaitNs_snd (replayer : Replayer) (nowNs capturedAt : Int64) :
    ∃ start, (replayer.timingWaitNs nowNs capturedAt).2 =
      { replayer with startRealNs := start } := by
  simp only [timingWaitNs]
  split
  · exact ⟨_, rfl⟩
  · exact ⟨_, rfl⟩
  all_goals exact ⟨replayer.startRealNs, rfl⟩

private theorem advanceVirtualClock_snd (replayer : Replayer) (capturedAt : Int64) :
    ∃ clock, (replayer.advanceVirtualClock capturedAt).2 =
      { replayer with virtualClockNs := clock } := by
  rw [advanceVirtualClock]
  split
  · exact ⟨_, rfl⟩
  · exact ⟨replayer.virtualClockNs, rfl⟩

/-- What the fault injector leaves behind for each outcome. -/
inductive Injected (replayer : Replayer) : Outcome → Replayer → Prop
  | dropped (prng : Prng) : Injected replayer .dropped { replayer with
      prng
      stats := { replayer.stats with framesDropped := replayer.stats.framesDropped + 1 }
      cursor := replayer.cursor + 1 }
  | delivered (event : ReplayEvent) (duplicated : Bool) (prng : Prng) (clock : Int64) :
      Injected replayer (.delivered event duplicated) { replayer with
        prng
        virtualClockNs := clock
        pendingDuplicate :=
          if duplicated then some { event with isDuplicate := true } else replayer.pendingDuplicate
        stats := { replayer.stats with
          framesDelivered := replayer.stats.framesDelivered + 1
          framesCorrupted := replayer.stats.framesCorrupted + event.wasCorrupted.toNat }
        cursor := replayer.cursor + 1 }

theorem inject_injected (replayer : Replayer) (frame : RecordedFrame) :
    replayer.Injected (replayer.inject frame).1 (replayer.inject frame).2 := by
  obtain ⟨clock, clocked⟩ := replayer.advanceVirtualClock_snd frame.capturedAtNs
  simp only [inject, clocked]
  split
  · exact .dropped _
  · exact .delivered _ _ _ clock

namespace Injected

variable {replayer next : Replayer} {outcome : Outcome}

theorem ahead (injected : replayer.Injected outcome next) :
    next.frames.drop next.cursor = (replayer.frames.drop replayer.cursor).tail := by
  rw [List.tail_drop]
  cases injected <;> rfl

theorem pendingDuplicate (injected : replayer.Injected outcome next)
    (calm : replayer.pendingDuplicate = none) :
    outcome.events = outcome.original?.toList ++ next.pendingDuplicate.toList := by
  cases injected with
  | dropped prng => simp only [calm]; rfl
  | delivered event duplicated prng clock => cases duplicated <;> simp only [calm] <;> rfl

private theorem settledStats (injected : replayer.Injected outcome next)
    (calm : replayer.pendingDuplicate = none) :
    next.settledStats = replayer.settledStats.count outcome := by
  cases injected with
  | dropped prng => rfl
  | delivered event duplicated prng clock =>
    cases duplicated <;> simp only [Replayer.settledStats, calm] <;> rfl

end Injected

/-! ## One poll -/

/-- A poll moves the front of what is to come to the caller, and ends with nothing to come. -/
structure Conserves (before : Replayer) (result : PollResult) (after : Replayer) : Prop where
  events : before.forthcoming = result.event?.toList ++ after.forthcoming
  stats : after.finalStats = before.finalStats
  done : result = .done → after.forthcoming = [] ∧ after.finalStats = after.stats

/-- A silent move before a poll. -/
theorem Conserves.after {before middle after : Replayer} {result : PollResult}
    (events : before.forthcoming = middle.forthcoming)
    (stats : middle.finalStats = before.finalStats) (conserves : middle.Conserves result after) :
    before.Conserves result after :=
  ⟨events.trans conserves.events, conserves.stats.trans stats, conserves.done⟩

/-- Passing the timing gate changes nothing of what is to come. -/
private theorem timingWaitNs_quiet (replayer : Replayer) (nowNs capturedAt : Int64) :
    let waited := (replayer.timingWaitNs nowNs capturedAt).2
    replayer.forthcoming = waited.forthcoming ∧ waited.finalStats = replayer.finalStats ∧
      waited.frames.drop waited.cursor = replayer.frames.drop replayer.cursor ∧
      waited.pendingDuplicate = replayer.pendingDuplicate := by
  obtain ⟨start, timed⟩ := replayer.timingWaitNs_snd nowNs capturedAt
  have prospects : { replayer with startRealNs := start }.prospects = replayer.prospects :=
    prospects_congr rfl
  rw [timed]
  refine ⟨?_, ?_, rfl, rfl⟩
  · rw [forthcoming, forthcoming, prospects]
  · rw [finalStats, finalStats, prospects]
    rfl

/-- The first prospect is what becomes of the next frame. -/
theorem prospects_cons {replayer : Replayer} {frame : RecordedFrame} {rest : List RecordedFrame}
    (ahead : replayer.frames.drop replayer.cursor = frame :: rest) :
    replayer.prospects = (replayer.inject frame).1 :: (replayer.inject frame).2.prospects := by
  rw [prospects, prospects, (replayer.inject_injected frame).ahead, ahead]
  rfl

/-- Offering a frame to the fault injector. -/
private theorem inject_conserves {replayer : Replayer} {frame : RecordedFrame}
    {rest : List RecordedFrame}
    (ahead : replayer.frames.drop replayer.cursor = frame :: rest)
    (calm : replayer.pendingDuplicate = none) :
    replayer.forthcoming = (replayer.inject frame).1.original?.toList ++
        (replayer.inject frame).2.forthcoming ∧
      (replayer.inject frame).2.finalStats = replayer.finalStats := by
  have injected := replayer.inject_injected frame
  have prospects := prospects_cons ahead
  constructor
  · rw [forthcoming, forthcoming, prospects, calm, List.flatMap_cons,
      injected.pendingDuplicate calm, List.append_assoc]
    rfl
  · rw [finalStats, finalStats, prospects, List.foldl_cons, injected.settledStats calm]

private theorem nextFrameLoop_conserves (nowNs : Int64) {frames : List RecordedFrame}
    {replayer : Replayer} (ahead : replayer.frames.drop replayer.cursor = frames)
    (calm : replayer.pendingDuplicate = none) :
    replayer.Conserves (nextFrameLoop nowNs frames replayer).1
      (nextFrameLoop nowNs frames replayer).2 := by
  induction frames generalizing replayer with
  | nil =>
    have nothing : replayer.prospects = [] := by
      rw [prospects, ahead]
      rfl
    refine ⟨rfl, rfl, fun _ => ⟨?_, ?_⟩⟩
    · rw [nextFrameLoop, forthcoming, nothing, calm]
      rfl
    · simp only [nextFrameLoop, finalStats, nothing, settledStats, calm]
      rfl
  | cons frame rest ih =>
    obtain ⟨events, stats, place, pending⟩ :=
      replayer.timingWaitNs_quiet nowNs frame.capturedAtNs
    rw [nextFrameLoop]
    generalize replayer.timingWaitNs nowNs frame.capturedAtNs = gate at events stats place pending ⊢
    obtain ⟨wait, waited⟩ := gate
    cases wait with
    | some waitNs => exact ⟨events, stats, nofun⟩
    | none =>
      have calm' := pending.trans calm
      have injected := waited.inject_injected frame
      obtain ⟨events', stats'⟩ := inject_conserves (place.trans ahead) calm'
      dsimp only
      generalize waited.inject frame = drawn at injected events' stats' ⊢
      obtain ⟨outcome, next⟩ := drawn
      cases outcome with
      | dropped =>
        refine .after (events.trans events') (stats'.trans stats) (ih ?_ ?_)
        · exact injected.ahead.trans (congrArg List.tail (place.trans ahead))
        · cases injected
          exact calm'
      | delivered event duplicated => exact ⟨events.trans events', stats'.trans stats, nofun⟩

theorem nextFrameAt_conserves (replayer : Replayer) (nowNs : Int64) :
    replayer.Conserves (replayer.nextFrameAt nowNs).1 (replayer.nextFrameAt nowNs).2 := by
  rw [nextFrameAt]
  cases pending : replayer.pendingDuplicate with
  | none => exact nextFrameLoop_conserves nowNs rfl pending
  | some dup =>
    have prospects : { replayer with
        pendingDuplicate := none
        stats := { replayer.stats with
          framesDuplicated := replayer.stats.framesDuplicated + 1 } }.prospects =
        replayer.prospects := prospects_congr rfl
    refine ⟨?_, ?_, nofun⟩
    · rw [forthcoming, forthcoming, prospects, pending]
      rfl
    · rw [finalStats, finalStats, prospects, settledStats, settledStats, pending]
      rfl

end Replayer

/-! ## Runs of polls -/

def polling : Machine Replayer Int64 PollResult where
  step replayer nowNs := ((replayer.nextFrameAt nowNs).2, (replayer.nextFrameAt nowNs).1)

/-- The events handed out by a sequence of polls. -/
def Replayer.readyEvents (replayer : Replayer) (polls : List Int64) : List ReplayEvent :=
  (polling.history replayer polls).flatMap fun event => event.output.event?.toList

/-- The last of these polls reports the end of the recording. -/
def Replayer.DrivenToDone (replayer : Replayer) (polls : List Int64) : Prop :=
  ∃ earlier last, polls = earlier ++ [last] ∧
    polling.answer (polling.final replayer earlier) last = .done

namespace Replayer

private theorem polls_conserve (replayer : Replayer) (polls : List Int64) :
    replayer.forthcoming =
        replayer.readyEvents polls ++ (polling.final replayer polls).forthcoming ∧
      (polling.final replayer polls).finalStats = replayer.finalStats := by
  induction polls generalizing replayer with
  | nil => exact ⟨rfl, rfl⟩
  | cons nowNs rest ih =>
    have conserves := replayer.nextFrameAt_conserves nowNs
    obtain ⟨events, stats⟩ := ih (replayer.nextFrameAt nowNs).2
    refine ⟨?_, stats.trans conserves.stats⟩
    rw [conserves.events, events, readyEvents, readyEvents, history_cons, List.flatMap_cons,
      List.append_assoc]
    rfl

/-- Polls that reach the end hand out everything that was to come. -/
private theorem drivenToDone_readyEvents {replayer : Replayer} {polls : List Int64}
    (driven : replayer.DrivenToDone polls) :
    replayer.readyEvents polls = replayer.forthcoming ∧
      (polling.final replayer polls).stats = replayer.finalStats := by
  obtain ⟨events, stats⟩ := replayer.polls_conserve polls
  obtain ⟨earlier, last, rfl, done⟩ := driven
  obtain ⟨nothing, settled⟩ := (nextFrameAt_conserves _ last).done done
  rw [final_append] at events stats ⊢
  constructor
  · exact (events.trans ((congrArg _ nothing).trans (List.append_nil _))).symm
  · exact settled.symm.trans stats

end Replayer

/-! ## What a replay of the whole recording is -/

/-- The two differ in exactly one byte. -/
def OneByteApart (first second : List UInt8) : Prop :=
  ∃ front byte other back, first = front ++ byte :: back ∧ second = front ++ other :: back ∧
    byte ≠ other

/-- The outcome is dropping the frame, or an original with its payload up to a reported
corruption. -/
inductive Reproduces (frame : RecordedFrame) : Outcome → Prop
  | dropped : Reproduces frame .dropped
  | delivered {event : ReplayEvent} (duplicated : Bool)
      (kind : event.sourceKind = frame.sourceKind) (original : event.isDuplicate = false)
      (faithful : event.wasCorrupted = false → event.payload = frame.payload)
      (corrupted : event.wasCorrupted = true → OneByteApart event.payload frame.payload) :
      Reproduces frame (.delivered event duplicated)

/-- Every frame was dropped or delivered, in order, and perhaps delivered once more at once. -/
def Replays (frames : List RecordedFrame) (events : List ReplayEvent) (stats : ReplayStats) :
    Prop :=
  ∃ outcomes, List.Forall₂ Reproduces frames outcomes ∧
    events = outcomes.flatMap Outcome.events ∧ stats = outcomes.foldl ReplayStats.count .default

private theorem xor_ff_ne (byte : UInt8) : byte ^^^ 0xFF ≠ byte := by
  intro same
  exact absurd ((UInt8.xor_right_inj byte).mp (same.trans UInt8.xor_zero.symm)) (by decide)

namespace Replayer

private theorem corrupt_spec (prng : Prng) (pct : UInt8) (payload : List UInt8) :
    ((corrupt prng pct payload).2.1 = false → (corrupt prng pct payload).1 = payload) ∧
      ((corrupt prng pct payload).2.1 = true →
        OneByteApart (corrupt prng pct payload).1 payload) := by
  rw [corrupt]
  dsimp only
  split
  · rename_i chosen
    refine ⟨nofun, fun _ => ?_⟩
    obtain ⟨front, byte, back, whole, -, flipped⟩ := List.exists_of_modify (· ^^^ 0xFF)
      (Nat.mod_lt ((prng.percentChance pct).2.next.1.toNat) (List.length_pos_iff.mpr chosen.2))
    exact ⟨front, byte ^^^ 0xFF, byte, back, flipped, whole, xor_ff_ne byte⟩
  · exact ⟨fun _ => rfl, nofun⟩

private theorem inject_reproduces (replayer : Replayer) (frame : RecordedFrame) :
    Reproduces frame (replayer.inject frame).1 := by
  simp only [inject]
  split
  · exact .dropped
  · obtain ⟨faithful, corrupted⟩ := corrupt_spec _ _ frame.payload
    exact .delivered _ rfl rfl faithful corrupted

private theorem outcomes_reproduce (frames : List RecordedFrame) (replayer : Replayer) :
    List.Forall₂ Reproduces frames (outcomes frames replayer) := by
  induction frames generalizing replayer with
  | nil => exact .nil
  | cons frame rest ih => exact .cons (replayer.inject_reproduces frame) (ih _)

private theorem new_replays (frames : List RecordedFrame) (mode : ReplayMode) :
    Replays frames (new frames mode).forthcoming (new frames mode).finalStats :=
  ⟨_, outcomes_reproduce frames (new frames mode), rfl, rfl⟩

end Replayer

private theorem foldl_count_total (outcomes : List Outcome) (stats : ReplayStats) :
    (outcomes.foldl ReplayStats.count stats).framesDelivered +
        (outcomes.foldl ReplayStats.count stats).framesDropped =
      stats.framesDelivered + stats.framesDropped + outcomes.length := by
  induction outcomes generalizing stats with
  | nil => rfl
  | cons outcome rest ih =>
    rw [List.foldl_cons, ih, List.length_cons]
    cases outcome <;> simp only [ReplayStats.count] <;> omega

/-- Every frame of a replay is counted as delivered or as dropped. -/
theorem Replays.total {frames : List RecordedFrame} {events : List ReplayEvent}
    {stats : ReplayStats} (replays : Replays frames events stats) :
    stats.framesDelivered + stats.framesDropped = frames.length := by
  obtain ⟨outcomes, each, -, rfl⟩ := replays
  rw [foldl_count_total, each.length_eq]
  exact Nat.zero_add _

/-! ## Fresh replayers -/

/-- The states of a replayer under polls and resets. -/
inductive Used (frames : List RecordedFrame) (mode : ReplayMode) : Replayer → Prop
  | new : Used frames mode (.new frames mode)
  | poll {replayer : Replayer} (nowNs : Int64) :
      Used frames mode replayer → Used frames mode (replayer.nextFrameAt nowNs).2
  | reset {replayer : Replayer} : Used frames mode replayer → Used frames mode replayer.reset

/-- A new replayer, or one after a reset. -/
def Fresh (frames : List RecordedFrame) (mode : ReplayMode) (replayer : Replayer) : Prop :=
  replayer = .new frames mode ∨ ∃ used, Used frames mode used ∧ replayer = used.reset

namespace Replayer

private theorem nextFrameLoop_reset (nowNs : Int64) (frames : List RecordedFrame)
    (replayer : Replayer) :
    (nextFrameLoop nowNs frames replayer).2.reset = replayer.reset := by
  induction frames generalizing replayer with
  | nil => rfl
  | cons frame rest ih =>
    obtain ⟨start, timed⟩ := replayer.timingWaitNs_snd nowNs frame.capturedAtNs
    rw [nextFrameLoop]
    generalize replayer.timingWaitNs nowNs frame.capturedAtNs = gate at timed ⊢
    obtain ⟨wait, waited⟩ := gate
    obtain rfl : waited = { replayer with startRealNs := start } := timed
    cases wait with
    | some waitNs => rfl
    | none =>
      have injected := inject_injected { replayer with startRealNs := start } frame
      dsimp only
      generalize inject { replayer with startRealNs := start } frame = drawn at injected ⊢
      obtain ⟨outcome, next⟩ := drawn
      cases injected with
      | dropped prng => exact ih _
      | delivered event duplicated prng clock => rfl

/-- A poll changes nothing that a reset does not undo. -/
private theorem nextFrameAt_reset (replayer : Replayer) (nowNs : Int64) :
    (replayer.nextFrameAt nowNs).2.reset = replayer.reset := by
  rw [nextFrameAt]
  split
  · rfl
  · exact nextFrameLoop_reset nowNs _ replayer

end Replayer

theorem Used.reset_eq {frames : List RecordedFrame} {mode : ReplayMode} {replayer : Replayer}
    (used : Used frames mode replayer) : replayer.reset = .new frames mode := by
  induction used with
  | new => rfl
  | poll nowNs used ih => exact (Replayer.nextFrameAt_reset _ nowNs).trans ih
  | reset used ih => exact ih

private theorem Fresh.eq_new {frames : List RecordedFrame} {mode : ReplayMode} {replayer : Replayer}
    (fresh : Fresh frames mode replayer) : replayer = .new frames mode := by
  obtain rfl | ⟨used, reached, rfl⟩ := fresh
  · rfl
  · exact reached.reset_eq

/-- Two replays of a recording agree whenever they are polled, and account for every frame. -/
theorem replay_schedule_independent {frames : List RecordedFrame} {mode : ReplayMode}
    {first second : Replayer} (fresh : Fresh frames mode first)
    (fresh' : Fresh frames mode second) {polls polls' : List Int64}
    (driven : first.DrivenToDone polls) (driven' : second.DrivenToDone polls') :
    first.readyEvents polls = second.readyEvents polls' ∧
      (polling.final first polls).stats = (polling.final second polls').stats ∧
      Replays frames (first.readyEvents polls) (polling.final first polls).stats ∧
      (polling.final first polls).stats.framesDelivered +
        (polling.final first polls).stats.framesDropped = frames.length := by
  obtain rfl := fresh.eq_new
  obtain rfl := fresh'.eq_new
  obtain ⟨events, stats⟩ := Replayer.drivenToDone_readyEvents driven
  obtain ⟨events', stats'⟩ := Replayer.drivenToDone_readyEvents driven'
  have replays := Replayer.new_replays frames mode
  rw [← events, ← stats] at replays
  exact ⟨events.trans events'.symm, stats.trans stats'.symm, replays, replays.total⟩

/-- Two frames, of which the injector drops the first and corrupts and doubles the second. -/
def chaosReplayer : Replayer :=
  .new [⟨100, [1, 2], .rawWsPayload⟩, ⟨105, [3], .rawWsPayload⟩]
    (.faultInjection .originalTiming ⟨50, 50, 50, 1⟩)

/-- Polled at once, and more patiently after a reset. -/
theorem replay_schedule_independent_chaos :
    chaosReplayer.readyEvents [0, 3, 5, 6, 6] =
      (chaosReplayer.nextFrameAt 9).2.reset.readyEvents [7, 12, 12, 12] :=
  (replay_schedule_independent (.inl rfl) (.inr ⟨_, .poll 9 .new, rfl⟩)
    ⟨[0, 3, 5, 6], 6, rfl, by decide⟩ ⟨[7, 12, 12], 12, rfl, by decide⟩).1

end TradingConnectivity.Replay
