import Mathlib.Data.Nat.Notation
import TradingConnectivity.ToMathlib.FixedWidth

/-! # The market-data replayer

A replayer hands out the frames of a recording one poll at a time. A frame first passes the timing
gate of the mode and then the fault injector, which draws whether to drop it, to flip one of its
bytes, and to emit it twice. Sizes and counters are natural numbers, which no recording that fits
in memory exceeds.
-/

namespace TradingConnectivity.Replay

inductive SourceKind
  | rawWsPayload
  | normalizedMessage
  | aeronArchive
deriving DecidableEq, Repr

structure RecordedFrame where
  capturedAtNs : Int64
  payload : List UInt8
  sourceKind : SourceKind
deriving DecidableEq, Repr

/-! ## Modes -/

/-- Probabilities in percent, and the seed of the draws. -/
structure FaultConfig where
  dropPercent : UInt8
  corruptPercent : UInt8
  duplicatePercent : UInt8
  seed : UInt64
deriving DecidableEq, Repr

inductive ReplayMode
  | asFastAsPossible
  | originalTiming
  | scaled (num den : UInt32)
  | deterministic
  | faultInjection (inner : ReplayMode) (faults : FaultConfig)
deriving DecidableEq, Repr

/-- The mode below every wrapper. -/
def ReplayMode.baseTiming : ReplayMode → ReplayMode
  | .faultInjection inner _ => inner.baseTiming
  | other => other

/-- The configuration of the outermost wrapper. -/
def ReplayMode.faultConfig : ReplayMode → Option FaultConfig
  | .faultInjection _ faults => some faults
  | _ => none

/-! ## Draws -/

/-- The xorshift generator. -/
structure Prng where
  state : UInt64
deriving DecidableEq, Repr

namespace Prng

/-- The generator would stay at zero, so that seed is replaced. -/
def new (seed : UInt64) : Prng := ⟨if seed = 0 then 0xDEADBEEFCAFEF00D else seed⟩

def next (prng : Prng) : UInt64 × Prng :=
  let x := prng.state
  let x := x ^^^ (x <<< 13)
  let x := x ^^^ (x >>> 7)
  let x := x ^^^ (x <<< 17)
  (x, ⟨x⟩)

/-- A chance of zero draws nothing. -/
def percentChance (prng : Prng) (pct : UInt8) : Bool × Prng :=
  if pct > 0 then
    let (draw, prng) := prng.next
    (draw % 100 < pct.toUInt64, prng)
  else (false, prng)

end Prng

/-! ## The replayer -/

structure ReplayStats where
  framesDelivered : ℕ
  framesDropped : ℕ
  framesCorrupted : ℕ
  framesDuplicated : ℕ
  /-- Left to callers that sleep between polls. -/
  totalWaitNs : Int64
deriving DecidableEq, Repr

def ReplayStats.default : ReplayStats := ⟨0, 0, 0, 0, 0⟩

structure ReplayEvent where
  sourceKind : SourceKind
  payload : List UInt8
  virtualTsNs : Int64
  wasCorrupted : Bool
  isDuplicate : Bool
deriving DecidableEq, Repr

inductive PollResult
  | ready (event : ReplayEvent)
  | notYet (waitNs : Int64)
  | done
deriving DecidableEq, Repr

structure Replayer where
  frames : List RecordedFrame
  cursor : ℕ
  mode : ReplayMode
  /-- When the first frame was asked for, in the modes that wait. -/
  startRealNs : Option Int64
  startVirtualNs : Int64
  virtualClockNs : Int64
  /-- The duplicate to hand out at the next poll. -/
  pendingDuplicate : Option ReplayEvent
  prng : Prng
  stats : ReplayStats
deriving DecidableEq, Repr

/-- What the fault injector makes of one frame. -/
inductive Outcome
  | dropped
  | delivered (event : ReplayEvent) (duplicated : Bool)
deriving DecidableEq, Repr

namespace Replayer

def seed (mode : ReplayMode) : UInt64 := (mode.faultConfig.map FaultConfig.seed).getD 0

def new (frames : List RecordedFrame) (mode : ReplayMode) : Replayer :=
  let startVirtualNs := (frames.head?.map RecordedFrame.capturedAtNs).getD 0
  { frames, mode, startVirtualNs
    virtualClockNs := startVirtualNs
    cursor := 0
    startRealNs := none
    pendingDuplicate := none
    prng := .new (seed mode)
    stats := .default }

def reset (replayer : Replayer) : Replayer :=
  { replayer with
    cursor := 0
    startRealNs := none
    virtualClockNs := replayer.startVirtualNs
    pendingDuplicate := none
    stats := .default
    prng := .new (seed replayer.mode) }

/-- Holds a frame back until `offset` after the first one was asked for. -/
def holdUntil (replayer : Replayer) (nowNs offset : Int64) : Option Int64 × Replayer :=
  let start := replayer.startRealNs.getD nowNs
  let emitAt := start.saturatingAdd offset
  (if nowNs ≥ emitAt then none else some (emitAt - nowNs),
    { replayer with startRealNs := some start })

/-- How long the frame has to wait, if at all. -/
def timingWaitNs (replayer : Replayer) (nowNs frameCapturedAt : Int64) :
    Option Int64 × Replayer :=
  let offset := frameCapturedAt.saturatingSub replayer.startVirtualNs
  match replayer.mode.baseTiming with
  | .originalTiming => replayer.holdUntil nowNs offset
  | .scaled num den =>
    let den := (max den 1).toUInt64.toInt64
    replayer.holdUntil nowNs (offset.saturatingMul num.toUInt64.toInt64 / den)
  -- a base mode is never the wrapper
  | .asFastAsPossible | .deterministic | .faultInjection _ _ => (none, replayer)

/-- The timestamp of the frame at the cursor, which is also the virtual clock afterwards in
deterministic mode. -/
def advanceVirtualClock (replayer : Replayer) (capturedAt : Int64) : Int64 × Replayer :=
  match replayer.mode.baseTiming with
  | .deterministic =>
    let clock :=
      match if replayer.cursor > 0 then replayer.frames[replayer.cursor - 1]? else none with
      | some prev =>
        let delta := max (capturedAt.saturatingSub prev.capturedAtNs) 0
        replayer.virtualClockNs.saturatingAdd delta
      | none => replayer.virtualClockNs
    (clock, { replayer with virtualClockNs := clock })
  | _ => (capturedAt, replayer)

def faultPercents (replayer : Replayer) : UInt8 × UInt8 × UInt8 :=
  match replayer.mode.faultConfig with
  | some fc => (fc.dropPercent, fc.corruptPercent, fc.duplicatePercent)
  | none => (0, 0, 0)

/-- Flips one byte with the given chance; an empty payload has none to flip. -/
def corrupt (prng : Prng) (pct : UInt8) (payload : List UInt8) : List UInt8 × Bool × Prng :=
  let (chosen, prng) := prng.percentChance pct
  if chosen ∧ payload ≠ [] then
    let (draw, prng) := prng.next
    (payload.modify (draw.toNat % payload.length) (· ^^^ 0xFF), true, prng)
  else (payload, false, prng)

/-- The fault injector at the frame under the cursor, which passed the timing gate. -/
def inject (replayer : Replayer) (frame : RecordedFrame) : Outcome × Replayer :=
  let (dropPct, corruptPct, dupPct) := replayer.faultPercents
  let (dropped, prng) := replayer.prng.percentChance dropPct
  if dropped then
    (.dropped, { replayer with
      prng
      stats := { replayer.stats with framesDropped := replayer.stats.framesDropped + 1 }
      cursor := replayer.cursor + 1 })
  else
    let (payload, wasCorrupted, prng) := corrupt prng corruptPct frame.payload
    let (virtualTsNs, clocked) := replayer.advanceVirtualClock frame.capturedAtNs
    let event := ⟨frame.sourceKind, payload, virtualTsNs, wasCorrupted, false⟩
    let (duplicated, prng) := prng.percentChance dupPct
    (.delivered event duplicated, { clocked with
      prng
      pendingDuplicate :=
        if duplicated then some { event with isDuplicate := true } else clocked.pendingDuplicate
      stats := { clocked.stats with
        framesDelivered := clocked.stats.framesDelivered + 1
        framesCorrupted := clocked.stats.framesCorrupted + wasCorrupted.toNat }
      cursor := clocked.cursor + 1 })

/-- The loop of a poll over the frames from the cursor on: it runs past dropped frames, each of
which has to pass the timing gate as well. -/
def nextFrameLoop (nowNs : Int64) : List RecordedFrame → Replayer → PollResult × Replayer
  | [], replayer => (.done, replayer)
  | frame :: rest, replayer =>
    match replayer.timingWaitNs nowNs frame.capturedAtNs with
    | (some waitNs, replayer) => (.notYet waitNs, replayer)
    | (none, replayer) =>
      match replayer.inject frame with
      | (.dropped, replayer) => nextFrameLoop nowNs rest replayer
      | (.delivered event _, replayer) => (.ready event, replayer)

def nextFrameAt (replayer : Replayer) (nowNs : Int64) : PollResult × Replayer :=
  match replayer.pendingDuplicate with
  | some dup =>
    (.ready dup, { replayer with
      pendingDuplicate := none
      stats := { replayer.stats with framesDuplicated := replayer.stats.framesDuplicated + 1 } })
  | none => nextFrameLoop nowNs (replayer.frames.drop replayer.cursor) replayer

end Replayer

end TradingConnectivity.Replay
