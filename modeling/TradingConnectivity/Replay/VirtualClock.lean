import TradingConnectivity.Replay.Polling
import TradingConnectivity.ToMathlib.FixedWidth

/-! # The virtual clock of a replay

In deterministic mode the clock is advanced by the distance of a delivered frame from the frame
before it in the recording. It stays behind when that frame was dropped, and when the distance does
not fit; otherwise it shows the recorded time. Which frames are dropped depends on the draws alone.
-/

namespace TradingConnectivity.Replay

/-! ## The draws -/

/-- What the draws decide for each frame: whether it is dropped. -/
def fates (percents : UInt8 × UInt8 × UInt8) :
    Prng → List RecordedFrame → List (RecordedFrame × Bool)
  | _, [] => []
  | prng, frame :: rest =>
    let (dropPct, corruptPct, dupPct) := percents
    let (dropped, prng) := prng.percentChance dropPct
    if dropped then (frame, true) :: fates percents prng rest
    else
      let (_, _, prng) := Replayer.corrupt prng corruptPct frame.payload
      let (_, prng) := prng.percentChance dupPct
      (frame, false) :: fates percents prng rest

/-- The fates of a whole recording. -/
def recordedFates (frames : List RecordedFrame) (mode : ReplayMode) :
    List (RecordedFrame × Bool) :=
  fates (Replayer.new frames mode).faultPercents (.new (Replayer.seed mode)) frames

/-- Some frame of the rest is delivered. -/
def Delivers (items : List (RecordedFrame × Bool)) : Prop := ∃ item ∈ items, item.2 = false

/-- Behind a frame recorded at `prev`, a dropped frame does not move the recorded time as long as
more frames are delivered, and a delivered frame is at a distance that fits. -/
def Steady : Int64 → List (RecordedFrame × Bool) → Prop
  | _, [] => True
  | prev, (frame, dropped) :: rest =>
    (if dropped then Delivers rest → frame.capturedAtNs = prev
      else frame.capturedAtNs.toInt - prev.toInt ≤ Int64.maxValue.toInt) ∧
    Steady frame.capturedAtNs rest

/-- Every event that a replayer hands out carries the recorded time of its frame, the one before the
cursor. -/
def ClockFaithful (frames : List RecordedFrame) (mode : ReplayMode) : Prop :=
  ∀ replayer, Used frames mode replayer → ∀ nowNs event after,
    replayer.nextFrameAt nowNs = (.ready event, after) →
      ∃ frame, after.frames[after.cursor - 1]? = some frame ∧
        event.virtualTsNs = frame.capturedAtNs

/-! ## The timestamps -/

/-- The timestamp of a delivered frame. -/
def tick (clock prev capturedAt : Int64) : Int64 :=
  clock.saturatingAdd (max (capturedAt.saturatingSub prev) 0)

/-- A clock that is not ahead shows the time of the next frame exactly if it shows the time of the
frame before it and the distance fits. -/
theorem tick_eq_iff {clock prev capturedAt : Int64} (behind : clock.toInt ≤ prev.toInt)
    (later : prev.toInt ≤ capturedAt.toInt) :
    tick clock prev capturedAt = capturedAt ↔
      clock = prev ∧ capturedAt.toInt - prev.toInt ≤ Int64.maxValue.toInt := by
  have least := Int64.toInt_minValue
  have most := Int64.toInt_maxValue
  have zero := Int64.toInt_zero
  have above := clock.le_toInt
  have below := capturedAt.toInt_lt
  have distance := Int64.toInt_saturatingSub capturedAt prev
  have forward : (max (capturedAt.saturatingSub prev) 0).toInt =
      min Int64.maxValue.toInt (capturedAt.toInt - prev.toInt) := by
    have choice : max (capturedAt.saturatingSub prev) 0 =
        if capturedAt.saturatingSub prev ≤ 0 then 0 else capturedAt.saturatingSub prev := rfl
    rw [choice]
    simp only [Int64.le_iff_toInt_le, zero]
    split <;> omega
  rw [← Int64.toInt_inj, ← Int64.toInt_inj, tick, Int64.toInt_saturatingAdd, forward]
  omega

/-- The clock does not overtake the recording. -/
private theorem tick_eq {prev capturedAt : Int64} (later : prev.toInt ≤ capturedAt.toInt)
    (fits : capturedAt.toInt - prev.toInt ≤ Int64.maxValue.toInt) :
    tick prev prev capturedAt = capturedAt := (tick_eq_iff le_rfl later).mpr ⟨rfl, fits⟩

/-- The timestamps of the delivered frames are the recorded ones. -/
def OnTime : Int64 → Int64 → List (RecordedFrame × Bool) → Prop
  | _, _, [] => True
  | clock, prev, (frame, dropped) :: rest =>
    if dropped then OnTime clock frame.capturedAtNs rest
    else tick clock prev frame.capturedAtNs = frame.capturedAtNs ∧
      OnTime (tick clock prev frame.capturedAtNs) frame.capturedAtNs rest

/-- A clock that is behind the recording delivers on time exactly if it has caught up, unless it
delivers nothing, and the rest is steady. -/
theorem onTime_iff {clock prev : Int64} {items : List (RecordedFrame × Bool)}
    (behind : clock.toInt ≤ prev.toInt)
    (ordered : (prev :: items.map (·.1.capturedAtNs)).IsChain (·.toInt ≤ ·.toInt)) :
    OnTime clock prev items ↔ (Delivers items → clock = prev) ∧ Steady prev items := by
  induction items generalizing clock prev with
  | nil => exact ⟨fun _ => ⟨fun ⟨_, member, _⟩ => absurd member List.not_mem_nil, trivial⟩,
      fun _ => trivial⟩
  | cons item rest ih =>
    obtain ⟨frame, dropped⟩ := item
    obtain ⟨later, ordered⟩ := List.isChain_cons_cons.mp ordered
    replace later : prev.toInt ≤ frame.capturedAtNs.toInt := later
    cases dropped with
    | true =>
      have delivers : Delivers ((frame, true) :: rest) ↔ Delivers rest := by
        simp [Delivers]
      have squeezed : clock = frame.capturedAtNs ↔ clock = prev ∧ frame.capturedAtNs = prev := by
        rw [← Int64.toInt_inj, ← Int64.toInt_inj, ← Int64.toInt_inj]
        omega
      simp only [OnTime, Steady, if_true, delivers, ih (behind.trans later) ordered, squeezed]
      rw [imp_and, and_assoc]
    | false =>
      have delivers : Delivers ((frame, false) :: rest) := ⟨_, List.mem_cons_self, rfl⟩
      simp only [OnTime, Steady, Bool.false_eq_true, if_false, delivers, true_imp_iff,
        tick_eq_iff behind later, and_assoc]
      refine and_congr_right fun caught => and_congr_right fun fits => ?_
      rw [caught, tick_eq later fits, ih le_rfl ordered]
      exact and_iff_right fun _ => rfl

/-! ## The replayer -/

/-- The frame is dropped, or its events carry its recorded time. -/
def Outcome.Punctual (frame : RecordedFrame) (outcome : Outcome) : Prop :=
  ∀ event duplicated, outcome = .delivered event duplicated →
    event.virtualTsNs = frame.capturedAtNs

namespace Replayer

/-- The frame before the one recorded at `capturedAt` was recorded at `prev`; the first frame counts
as its own predecessor. -/
def Follows (replayer : Replayer) (prev capturedAt : Int64) : Prop :=
  (∃ frame, 0 < replayer.cursor ∧ replayer.frames[replayer.cursor - 1]? = some frame ∧
    frame.capturedAtNs = prev) ∨ replayer.cursor = 0 ∧ prev = capturedAt

private theorem tick_self (clock capturedAt : Int64) :
    tick clock capturedAt capturedAt = clock := by
  have least := Int64.toInt_minValue
  have most := Int64.toInt_maxValue
  have still : capturedAt.saturatingSub capturedAt = 0 := by
    rw [← Int64.toInt_inj, Int64.toInt_saturatingSub, Int.sub_self]
    rfl
  have low := clock.le_toInt
  have high := clock.toInt_lt
  have none : (max (0 : Int64) 0).toInt = 0 := rfl
  rw [tick, still, ← Int64.toInt_inj, Int64.toInt_saturatingAdd, none]
  omega

private theorem advanceVirtualClock_tick {replayer : Replayer} {prev capturedAt : Int64}
    (base : replayer.mode.baseTiming = .deterministic)
    (follows : replayer.Follows prev capturedAt) :
    replayer.advanceVirtualClock capturedAt =
      (tick replayer.virtualClockNs prev capturedAt,
        { replayer with virtualClockNs := tick replayer.virtualClockNs prev capturedAt }) := by
  rw [advanceVirtualClock, base]
  rcases follows with ⟨frame, later, before, rfl⟩ | ⟨first, rfl⟩
  · simp only [gt_iff_lt, if_pos later, before]
    rfl
  · have start : ¬replayer.cursor > 0 := by omega
    simp only [if_neg start, tick_self]

/-- The draws that a frame takes, told without the clock. -/
private theorem fates_cons (replayer : Replayer) (frame : RecordedFrame)
    (rest : List RecordedFrame) :
    fates replayer.faultPercents replayer.prng (frame :: rest) =
      (frame, (replayer.inject frame).1.original?.isNone) ::
        fates replayer.faultPercents (replayer.inject frame).2.prng rest := by
  simp only [fates, inject]
  split
  · rfl
  · rfl

theorem Injected.same {replayer next : Replayer} {outcome : Outcome}
    (injected : replayer.Injected outcome next) :
    next.frames = replayer.frames ∧ next.mode = replayer.mode ∧
      next.cursor = replayer.cursor + 1 := by
  cases injected <;> exact ⟨rfl, rfl, rfl⟩

/-- A delivered frame advances the clock to its timestamp; a dropped one does not touch it. -/
private theorem inject_clock {replayer : Replayer} {prev : Int64} {frame : RecordedFrame}
    (base : replayer.mode.baseTiming = .deterministic)
    (follows : replayer.Follows prev frame.capturedAtNs) :
    match (replayer.inject frame).1 with
    | .dropped => (replayer.inject frame).2.virtualClockNs = replayer.virtualClockNs
    | .delivered event _ =>
      event.virtualTsNs = tick replayer.virtualClockNs prev frame.capturedAtNs ∧
        (replayer.inject frame).2.virtualClockNs = event.virtualTsNs := by
  cases dropped : (replayer.prng.percentChance replayer.faultPercents.1).1 with
  | true => simp only [inject, dropped, if_true]
  | false =>
    simp only [inject, dropped, Bool.false_eq_true, if_false,
      advanceVirtualClock_tick base follows, and_self]

/-- In deterministic mode the events carry the recorded times exactly if the clock alone says so. -/
theorem punctual_iff_onTime {replayer : Replayer} {prev : Int64} {ahead : List RecordedFrame}
    (base : replayer.mode.baseTiming = .deterministic)
    (place : replayer.frames.drop replayer.cursor = ahead)
    (follows : ∀ frame ∈ ahead.head?, replayer.Follows prev frame.capturedAtNs) :
    List.Forall₂ Outcome.Punctual ahead (outcomes ahead replayer) ↔
      OnTime replayer.virtualClockNs prev
        (fates replayer.faultPercents replayer.prng ahead) := by
  induction ahead generalizing replayer prev with
  | nil => exact ⟨fun _ => trivial, fun _ => .nil⟩
  | cons frame rest ih =>
    have clock := inject_clock base (follows frame rfl)
    have injected := replayer.inject_injected frame
    obtain ⟨frames, mode, cursor⟩ := injected.same
    have ahead := injected.ahead
    rw [place, List.tail_cons] at ahead
    have here : replayer.frames[replayer.cursor]? = some frame := by
      rw [← List.head?_drop, place]
      rfl
    have percents : (replayer.inject frame).2.faultPercents = replayer.faultPercents := by
      rw [faultPercents, mode, faultPercents]
    have follows : ∀ following ∈ rest.head?, (replayer.inject frame).2.Follows
        frame.capturedAtNs following.capturedAtNs := fun _ _ =>
      .inl ⟨frame, by omega, by rw [frames, cursor]; exact here, rfl⟩
    have rest_iff := ih (mode.symm ▸ base) ahead follows
    rw [percents] at rest_iff
    rw [fates_cons, outcomes, List.forall₂_cons, rest_iff]
    generalize replayer.inject frame = drawn at clock
    obtain ⟨outcome, next⟩ := drawn
    cases outcome with
    | dropped =>
      have clock : next.virtualClockNs = replayer.virtualClockNs := clock
      rw [clock]
      refine and_iff_right ?_
      rintro _ _ ⟨⟩
    | delivered event duplicated =>
      obtain ⟨stamped, clock⟩ := clock
      have punctual : Outcome.Punctual frame (.delivered event duplicated) ↔
          tick replayer.virtualClockNs prev frame.capturedAtNs = frame.capturedAtNs := by
        rw [← stamped]
        constructor
        · intro punctual
          exact punctual event duplicated rfl
        · rintro same _ _ ⟨⟩
          exact same
      rw [punctual, clock, stamped]
      rfl

end Replayer

/-! ## Runs -/

/-- The replayer is at its place in a recording with these outcomes, and its pending duplicate comes
from the frame before the cursor. -/
structure Located (outcomes : List Outcome) (replayer : Replayer) : Prop where
  prospects : replayer.prospects = outcomes.drop replayer.cursor
  pending : ∀ dup ∈ replayer.pendingDuplicate, ∃ event duplicated,
    outcomes[replayer.cursor - 1]? = some (.delivered event duplicated) ∧
      dup.virtualTsNs = event.virtualTsNs

/-- An event comes from the frame before the cursor. -/
def HandsOut (outcomes : List Outcome) (result : PollResult) (after : Replayer) : Prop :=
  ∀ event, result = .ready event → ∃ original duplicated,
    outcomes[after.cursor - 1]? = some (.delivered original duplicated) ∧
      event.virtualTsNs = original.virtualTsNs

namespace Located

variable {outcomes : List Outcome} {replayer : Replayer}

/-- A silent move leaves the prospects where they are. -/
theorem moved (located : Located outcomes replayer) {moved : Replayer}
    (same : moved.place = replayer.place) : moved.prospects = outcomes.drop moved.cursor := by
  have cursor : moved.place.cursor = replayer.place.cursor := congrArg Replayer.cursor same
  rw [Replayer.prospects_congr same, located.prospects]
  exact congrArg (List.drop · outcomes) cursor.symm

/-- A frame that is offered to the fault injector. -/
theorem inject (located : Located outcomes replayer) {frame : RecordedFrame}
    {rest : List RecordedFrame} (ahead : replayer.frames.drop replayer.cursor = frame :: rest)
    (calm : replayer.pendingDuplicate = none) :
    Located outcomes (replayer.inject frame).2 ∧
      outcomes[replayer.cursor]? = some (replayer.inject frame).1 := by
  have prospects := located.prospects
  rw [Replayer.prospects_cons ahead] at prospects
  have injected := replayer.inject_injected frame
  obtain ⟨-, -, cursor⟩ := injected.same
  have here : outcomes[replayer.cursor]? = some (replayer.inject frame).1 := by
    rw [← List.head?_drop, ← prospects]
    rfl
  refine ⟨⟨?_, ?_⟩, here⟩
  · rw [cursor, ← List.tail_drop, ← prospects]
    rfl
  · rw [cursor, Nat.add_sub_cancel, here]
    generalize replayer.inject frame = drawn at injected
    obtain ⟨outcome, next⟩ := drawn
    intro dup pending
    cases injected with
    | dropped prng =>
      rw [calm] at pending
      cases pending
    | delivered event duplicated prng clock =>
      refine ⟨event, duplicated, rfl, ?_⟩
      cases duplicated with
      | true =>
        obtain rfl := Option.some.inj pending
        rfl
      | false =>
        rw [Option.mem_def, if_neg (by decide), calm] at pending
        cases pending

theorem nextFrameLoop (located : Located outcomes replayer) (nowNs : Int64)
    {frames : List RecordedFrame} (ahead : replayer.frames.drop replayer.cursor = frames)
    (calm : replayer.pendingDuplicate = none) :
    Located outcomes (Replayer.nextFrameLoop nowNs frames replayer).2 ∧
      HandsOut outcomes (Replayer.nextFrameLoop nowNs frames replayer).1
        (Replayer.nextFrameLoop nowNs frames replayer).2 := by
  induction frames generalizing replayer with
  | nil =>
    refine ⟨located, ?_⟩
    rintro _ ⟨⟩
  | cons frame rest ih =>
    obtain ⟨start, timed⟩ := replayer.timingWaitNs_snd nowNs frame.capturedAtNs
    have waiting : Located outcomes { replayer with startRealNs := start } :=
      ⟨located.moved rfl, located.pending⟩
    rw [Replayer.nextFrameLoop]
    generalize replayer.timingWaitNs nowNs frame.capturedAtNs = gate at timed ⊢
    obtain ⟨wait, waited⟩ := gate
    obtain rfl : waited = { replayer with startRealNs := start } := timed
    cases wait with
    | some waitNs =>
      refine ⟨waiting, ?_⟩
      rintro _ ⟨⟩
    | none =>
      obtain ⟨later, here⟩ := waiting.inject ahead calm
      have injected := Replayer.inject_injected { replayer with startRealNs := start } frame
      have behind := injected.ahead
      dsimp only at behind here ⊢
      generalize Replayer.inject { replayer with startRealNs := start } frame = drawn
        at later here injected behind ⊢
      obtain ⟨outcome, next⟩ := drawn
      obtain ⟨-, -, cursor⟩ := injected.same
      cases outcome with
      | dropped =>
        refine ih later (behind.trans (congrArg List.tail ahead)) ?_
        cases injected
        exact calm
      | delivered event duplicated =>
        refine ⟨later, ?_⟩
        rintro _ ⟨⟩
        rw [cursor, Nat.add_sub_cancel]
        exact ⟨event, duplicated, here, rfl⟩

theorem nextFrameAt (located : Located outcomes replayer) (nowNs : Int64) :
    Located outcomes (replayer.nextFrameAt nowNs).2 ∧
      HandsOut outcomes (replayer.nextFrameAt nowNs).1 (replayer.nextFrameAt nowNs).2 := by
  rw [Replayer.nextFrameAt]
  cases pending : replayer.pendingDuplicate with
  | none => exact located.nextFrameLoop nowNs rfl pending
  | some dup =>
    refine ⟨⟨located.moved rfl, ?_⟩, ?_⟩
    · rintro _ ⟨⟩
    rintro _ ⟨⟩
    exact located.pending dup pending

end Located

/-- What the fault injector makes of a recording. -/
def recordedOutcomes (frames : List RecordedFrame) (mode : ReplayMode) : List Outcome :=
  Replayer.outcomes frames (.new frames mode)

theorem Located.new (frames : List RecordedFrame) (mode : ReplayMode) :
    Located (recordedOutcomes frames mode) (.new frames mode) := ⟨rfl, nofun⟩

private theorem Used.located {frames : List RecordedFrame} {mode : ReplayMode} {replayer : Replayer}
    (used : Used frames mode replayer) : Located (recordedOutcomes frames mode) replayer := by
  induction used with
  | new => exact .new frames mode
  | poll nowNs used ih => exact (ih.nextFrameAt nowNs).1
  | reset used ih =>
    rw [used.reset_eq]
    exact .new frames mode

private theorem Used.frames_eq {frames : List RecordedFrame} {mode : ReplayMode}
    {replayer : Replayer}
    (used : Used frames mode replayer) : replayer.frames = frames ∧ replayer.mode = mode := by
  have reset := used.reset_eq
  exact ⟨congrArg Replayer.frames reset, congrArg Replayer.mode reset⟩

/-- Punctual outcomes make every event carry the recorded time. -/
theorem clockFaithful_of_punctual {frames : List RecordedFrame} {mode : ReplayMode}
    (punctual : List.Forall₂ Outcome.Punctual frames (recordedOutcomes frames mode)) :
    ClockFaithful frames mode := by
  intro replayer used nowNs event after polled
  have usedAfter : Used frames mode (replayer.nextFrameAt nowNs).2 := used.poll nowNs
  have handed := (used.located.nextFrameAt nowNs).2
  rw [polled] at handed usedAfter
  obtain ⟨original, duplicated, found, stamped⟩ := handed event rfl
  rw [usedAfter.frames_eq.1, stamped]
  obtain ⟨bound, outcome⟩ := List.getElem?_eq_some_iff.mp found
  have bound' : after.cursor - 1 < frames.length := punctual.length_eq ▸ bound
  refine ⟨frames[after.cursor - 1], List.getElem?_eq_getElem bound', ?_⟩
  exact punctual.get bound' bound original duplicated outcome

/-- Outside the deterministic mode the timestamp is the recorded one. -/
theorem outcomes_punctual {ahead : List RecordedFrame} {replayer : Replayer}
    (base : replayer.mode.baseTiming ≠ .deterministic) :
    List.Forall₂ Outcome.Punctual ahead (Replayer.outcomes ahead replayer) := by
  induction ahead generalizing replayer with
  | nil => exact .nil
  | cons frame rest ih =>
    obtain ⟨-, mode, -⟩ := (replayer.inject_injected frame).same
    refine .cons ?_ (ih (mode.symm ▸ base))
    have recorded : (replayer.advanceVirtualClock frame.capturedAtNs).1 = frame.capturedAtNs := by
      rw [Replayer.advanceVirtualClock]
      split
      · contradiction
      · rfl
    intro event duplicated delivered
    simp only [Replayer.inject, recorded] at delivered
    split at delivered
    · cases delivered
    · cases delivered
      rfl

/-- A pending duplicate can be handed out first. -/
theorem Used.settled {frames : List RecordedFrame} {mode : ReplayMode} {replayer : Replayer}
    (used : Used frames mode replayer) : ∃ settled, Used frames mode settled ∧
      settled.pendingDuplicate = none ∧ settled.place = replayer.place := by
  cases pending : replayer.pendingDuplicate with
  | none => exact ⟨replayer, used, pending, rfl⟩
  | some dup =>
    refine ⟨(replayer.nextFrameAt 0).2, used.poll 0, ?_, ?_⟩
    · rw [Replayer.nextFrameAt, pending]
    · rw [Replayer.nextFrameAt, pending]
      rfl

/-- In deterministic mode a replayer gets to every frame that is left, so all of them have to be
punctual. -/
theorem punctual_of_clockFaithful {frames : List RecordedFrame} {mode : ReplayMode}
    (faithful : ClockFaithful frames mode) (base : mode.baseTiming = .deterministic)
    {ahead : List RecordedFrame} {replayer used : Replayer} (reached : Used frames mode used)
    (same : replayer.frames = frames ∧ replayer.mode = mode)
    (calm : replayer.pendingDuplicate = none)
    (place : replayer.frames.drop replayer.cursor = ahead)
    (polled : used.nextFrameAt 0 = Replayer.nextFrameLoop 0 ahead replayer) :
    List.Forall₂ Outcome.Punctual ahead (Replayer.outcomes ahead replayer) := by
  induction ahead generalizing replayer used with
  | nil => exact .nil
  | cons frame rest ih =>
    have gate : replayer.timingWaitNs 0 frame.capturedAtNs = (none, replayer) := by
      rw [Replayer.timingWaitNs, same.2, base]
    rw [Replayer.nextFrameLoop, gate] at polled
    have injected := replayer.inject_injected frame
    have behind := injected.ahead
    obtain ⟨frames', mode', cursor⟩ := injected.same
    have here : replayer.frames[replayer.cursor]? = some frame := by
      rw [← List.head?_drop, place]
      rfl
    rw [Replayer.outcomes]
    dsimp only at polled
    generalize replayer.inject frame = drawn at polled injected behind frames' mode' cursor ⊢
    obtain ⟨outcome, next⟩ := drawn
    rw [place, List.tail_cons] at behind
    have sameNext := And.intro (frames'.trans same.1) (mode'.trans same.2)
    cases outcome with
    | dropped =>
      refine .cons ?_ (ih reached sameNext ?_ behind polled)
      · rintro _ _ ⟨⟩
      cases injected
      exact calm
    | delivered event duplicated =>
      obtain ⟨recorded, before, stamped⟩ := faithful used reached 0 event next polled
      rw [frames', cursor, Nat.add_sub_cancel, here] at before
      obtain rfl := Option.some.inj before
      have usedNext : Used frames mode next := by
        have later : Used frames mode (used.nextFrameAt 0).2 := reached.poll 0
        rwa [polled] at later
      obtain ⟨settled, reachedSettled, calmSettled, moved⟩ := usedNext.settled
      have sameFrames : settled.place.frames = next.place.frames := congrArg Replayer.frames moved
      have sameMode : settled.place.mode = next.place.mode := congrArg Replayer.mode moved
      have sameCursor : settled.place.cursor = next.place.cursor := congrArg Replayer.cursor moved
      have placeSettled : settled.frames.drop settled.cursor = rest :=
        (congrArg₂ (fun n fs => List.drop n fs) sameCursor sameFrames).trans behind
      refine .cons ?_ ?_
      · rintro _ _ ⟨⟩
        exact stamped
      · rw [← Replayer.outcomes_congr moved]
        refine ih reachedSettled ⟨sameFrames.trans sameNext.1, sameMode.trans sameNext.2⟩
          calmSettled placeSettled ?_
        rw [Replayer.nextFrameAt, calmSettled, placeSettled]

/-- The time at which the clock starts. -/
def startOf (frames : List RecordedFrame) : Int64 :=
  (frames.head?.map RecordedFrame.capturedAtNs).getD 0

private theorem fates_frames (percents : UInt8 × UInt8 × UInt8) (prng : Prng)
    (frames : List RecordedFrame) : (fates percents prng frames).map Prod.fst = frames := by
  induction frames generalizing prng with
  | nil => rfl
  | cons frame rest ih =>
    simp only [fates]
    split
    · rw [List.map_cons, ih]
    · rw [List.map_cons, ih]

/-- The recorded times in order, the first one twice. -/
private theorem isChain_startOf {frames : List RecordedFrame}
    (ordered : (frames.map RecordedFrame.capturedAtNs).Pairwise (· ≤ ·)) :
    (startOf frames :: frames.map RecordedFrame.capturedAtNs).IsChain (·.toInt ≤ ·.toInt) := by
  cases frames with
  | nil => exact .singleton _
  | cons frame rest =>
    refine .cons_cons (le_refl frame.capturedAtNs.toInt) ?_
    exact ordered.isChain.imp fun _ _ => Int64.le_iff_toInt_le.mp

/-- Every event carries the recorded time of its frame exactly if the mode is not deterministic or
the draws leave the recording steady. -/
theorem clockFaithful_iff {frames : List RecordedFrame} (mode : ReplayMode)
    (ordered : (frames.map RecordedFrame.capturedAtNs).Pairwise (· ≤ ·)) :
    ClockFaithful frames mode ↔
      (mode.baseTiming = .deterministic → Steady (startOf frames) (recordedFates frames mode)) := by
  by_cases base : mode.baseTiming = .deterministic
  · have times : (recordedFates frames mode).map (·.1.capturedAtNs) =
        frames.map RecordedFrame.capturedAtNs := by
      conv_rhs => rw [← fates_frames (Replayer.new frames mode).faultPercents
        (.new (Replayer.seed mode)) frames, List.map_map]
      rfl
    have follows : ∀ frame ∈ frames.head?,
        (Replayer.new frames mode).Follows (startOf frames) frame.capturedAtNs := by
      intro frame first
      refine .inr ⟨rfl, ?_⟩
      rw [startOf, Option.mem_def.mp first]
      rfl
    have punctual : ClockFaithful frames mode ↔
        List.Forall₂ Outcome.Punctual frames (recordedOutcomes frames mode) :=
      ⟨fun faithful => punctual_of_clockFaithful faithful base .new ⟨rfl, rfl⟩ rfl rfl rfl,
        clockFaithful_of_punctual⟩
    calc ClockFaithful frames mode
        ↔ List.Forall₂ Outcome.Punctual frames (recordedOutcomes frames mode) := punctual
      _ ↔ OnTime (startOf frames) (startOf frames) (recordedFates frames mode) :=
          Replayer.punctual_iff_onTime base rfl follows
      _ ↔ (Delivers (recordedFates frames mode) → startOf frames = startOf frames) ∧
            Steady (startOf frames) (recordedFates frames mode) :=
          onTime_iff le_rfl (times ▸ isChain_startOf ordered)
      _ ↔ _ := by simp only [implies_true, true_and, base, true_imp_iff]
  · exact ⟨fun _ timing => absurd timing base,
      fun _ => clockFaithful_of_punctual (outcomes_punctual base)⟩

/-- Three frames, of which the injector drops the second. -/
def thinned : List RecordedFrame :=
  [⟨100, [1], .rawWsPayload⟩, ⟨105, [2], .rawWsPayload⟩, ⟨112, [3], .rawWsPayload⟩]

def thinning : ReplayMode := .faultInjection .deterministic ⟨50, 0, 0, 1⟩

theorem clockFaithful_iff_thinned : ¬ClockFaithful thinned thinning := by
  have ordered : (thinned.map RecordedFrame.capturedAtNs).Pairwise (· ≤ ·) := by decide
  have drawn : recordedFates thinned thinning =
      [(⟨100, [1], .rawWsPayload⟩, false), (⟨105, [2], .rawWsPayload⟩, true),
        (⟨112, [3], .rawWsPayload⟩, false)] := by decide
  rw [clockFaithful_iff thinning ordered, drawn]
  intro steady
  obtain ⟨-, moved, -⟩ := steady rfl
  exact absurd (moved ⟨_, List.mem_cons_self, rfl⟩) (by decide)

/-- Behind a dropped frame the clock is late: the third frame gets the time 107. -/
theorem clock_late : ¬∀ (frames : List RecordedFrame) (mode : ReplayMode),
    (frames.map RecordedFrame.capturedAtNs).Pairwise (· ≤ ·) → ClockFaithful frames mode := by
  intro faithful
  have ordered : (thinned.map RecordedFrame.capturedAtNs).Pairwise (· ≤ ·) := by decide
  obtain ⟨frame, found, stamped⟩ := faithful thinned thinning ordered
    _ (.poll 0 .new) 0 ⟨.rawWsPayload, [3], 107, false, false⟩ _ rfl
  obtain rfl : frame = ⟨112, [3], .rawWsPayload⟩ := (Option.some.inj found).symm
  exact absurd stamped (by decide)

end TradingConnectivity.Replay
