import Mathlib.Data.Nat.Notation

/-! # Sequence validators

Every symbol has a validator that decides, from the update ids of a depth event, whether the event
continues the book. The spot venue numbers its updates without holes, so an event must begin one
past the last accepted one. The futures venue skips numbers and names the previous event instead.
Both share their states and results; ids are 64-bit and `+ 1` wraps.
-/

namespace TradingConnectivity.MarketData

/-- Internal state of a sequence validator. -/
inductive ValidationState
  /-- No snapshot has been applied yet. -/
  | awaitingSnapshot
  /-- A snapshot is applied; the next event must bridge into the stream. -/
  | bridging (snapshotId : UInt64)
  /-- The stream is contiguous up to `lastFinal`. -/
  | active (lastFinal : UInt64)
  /-- A gap was detected after `lastValid`. -/
  | stale (lastValid : UInt64)
deriving DecidableEq, Repr

/-- Result of validating one depth event. In the futures validator `expected` and `actual` are the
fields `expected_pu` and `actual_pu`. -/
inductive ValidateResult
  | apply
  | discard
  | gap (expected actual lastValid : UInt64)
  | buffering
deriving DecidableEq, Repr

/-- The id a state vouches for, `last_valid_id` in both validators. -/
def ValidationState.lastValidId : ValidationState → Option UInt64
  | .awaitingSnapshot => none
  | .bridging snapshotId => some snapshotId
  | .active lastFinal => some lastFinal
  | .stale lastValid => some lastValid

/-- Validates the `U` / `u` ids of spot depth events. -/
structure SequenceValidator where
  state : ValidationState
deriving DecidableEq, Repr

namespace SequenceValidator

def new : SequenceValidator := ⟨.awaitingSnapshot⟩

def onSnapshot (_ : SequenceValidator) (lastUpdateId : UInt64) : SequenceValidator :=
  ⟨.bridging lastUpdateId⟩

def reset (_ : SequenceValidator) : SequenceValidator := ⟨.awaitingSnapshot⟩

def validate (v : SequenceValidator) (first final : UInt64) : ValidateResult × SequenceValidator :=
  match v.state with
  | .awaitingSnapshot => (.buffering, v)
  | .bridging snapshotId =>
    -- the event predates the snapshot
    if final ≤ snapshotId then (.discard, v)
    else if first ≤ snapshotId + 1 then (.apply, ⟨.active final⟩)
    else (.gap (snapshotId + 1) first snapshotId, ⟨.stale snapshotId⟩)
  | .active lastFinal =>
    if first = lastFinal + 1 then (.apply, ⟨.active final⟩)
    else if first > lastFinal + 1 then
      (.gap (lastFinal + 1) first lastFinal, ⟨.stale lastFinal⟩)
    -- duplicate or overlapping event
    else (.discard, v)
  | .stale _ => (.buffering, v)

def lastValidId (v : SequenceValidator) : Option UInt64 := v.state.lastValidId

/-- Everything one event can do. -/
theorem validate_cases (v : SequenceValidator) (first final : UInt64) :
    (v.validate first final = (.buffering, v) ∧
      (v.state = .awaitingSnapshot ∨ ∃ last, v.state = .stale last)) ∨
    (∃ last, v.validate first final = (.discard, v) ∧
      (v.state = .bridging last ∧ final ≤ last ∨ v.state = .active last ∧ first < last + 1)) ∨
    (∃ last, v.validate first final = (.apply, ⟨.active final⟩) ∧
      (v.state = .bridging last ∧ last < final ∧ first ≤ last + 1 ∨
        v.state = .active last ∧ first = last + 1)) ∨
    ∃ last, v.validate first final = (.gap (last + 1) first last, ⟨.stale last⟩) ∧
      (v.state = .bridging last ∧ last < final ∨ v.state = .active last) ∧ last + 1 < first := by
  obtain ⟨state⟩ := v
  cases state with
  | awaitingSnapshot => exact .inl ⟨rfl, .inl rfl⟩
  | stale last => exact .inl ⟨rfl, .inr ⟨last, rfl⟩⟩
  | bridging last =>
    simp only [validate]
    by_cases early : final ≤ last
    · rw [if_pos early]
      exact .inr (.inl ⟨last, rfl, .inl ⟨rfl, early⟩⟩)
    have late := UInt64.not_le.mp early
    rw [if_neg early]
    by_cases joins : first ≤ last + 1
    · rw [if_pos joins]
      exact .inr (.inr (.inl ⟨last, rfl, .inl ⟨rfl, late, joins⟩⟩))
    · rw [if_neg joins]
      exact .inr (.inr (.inr ⟨last, rfl, .inl ⟨rfl, late⟩, UInt64.not_le.mp joins⟩))
  | active last =>
    simp only [validate]
    by_cases follows : first = last + 1
    · rw [if_pos follows]
      exact .inr (.inr (.inl ⟨last, rfl, .inr ⟨rfl, follows⟩⟩))
    rw [if_neg follows]
    by_cases beyond : last + 1 < first
    · rw [if_pos beyond]
      exact .inr (.inr (.inr ⟨last, rfl, .inr rfl, beyond⟩))
    · rw [if_neg beyond]
      refine .inr (.inl ⟨last, rfl, .inr ⟨rfl, ?_⟩⟩)
      exact UInt64.lt_of_le_of_ne (UInt64.not_lt.mp beyond) follows

end SequenceValidator

/-- Validates the `U` / `u` / `pu` ids of futures depth events. -/
structure FuturesSequenceValidator where
  state : ValidationState
deriving DecidableEq, Repr

namespace FuturesSequenceValidator

def new : FuturesSequenceValidator := ⟨.awaitingSnapshot⟩

def onSnapshot (_ : FuturesSequenceValidator) (lastUpdateId : UInt64) : FuturesSequenceValidator :=
  ⟨.bridging lastUpdateId⟩

def reset (_ : FuturesSequenceValidator) : FuturesSequenceValidator := ⟨.awaitingSnapshot⟩

def validate (v : FuturesSequenceValidator) (first final prevFinal : UInt64) :
    ValidateResult × FuturesSequenceValidator :=
  match v.state with
  | .awaitingSnapshot => (.buffering, v)
  | .bridging snapshotId =>
    if final ≤ snapshotId then (.discard, v)
    else if first ≤ snapshotId + 1 then (.apply, ⟨.active final⟩)
    else (.gap snapshotId prevFinal snapshotId, ⟨.stale snapshotId⟩)
  | .active lastFinal =>
    if prevFinal = lastFinal then (.apply, ⟨.active final⟩)
    else if prevFinal < lastFinal then (.discard, v)
    else (.gap lastFinal prevFinal lastFinal, ⟨.stale lastFinal⟩)
  | .stale _ => (.buffering, v)

def lastValidId (v : FuturesSequenceValidator) : Option UInt64 := v.state.lastValidId

end FuturesSequenceValidator

end TradingConnectivity.MarketData
