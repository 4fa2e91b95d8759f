import TradingConnectivity.Machine.EventSourcing
import TradingConnectivity.MarketData.Sequence
import TradingConnectivity.ToMathlib.Consecutive
import TradingConnectivity.ToMathlib.FixedWidth
import Mathlib.Algebra.Order.SuccPred
import Mathlib.Data.Nat.SuccPred

/-! # No silent gap

The spot validator as a machine over its three calls. While a run is active, the ranges it applied
since the latest snapshot bridge past the snapshot id and are consecutive from there on, so no
update id in between was skipped. After a gap nothing is applied until the next snapshot.
-/

namespace TradingConnectivity.MarketData

open Machine

/-- The calls a validator receives. -/
inductive SequenceCall
  | onSnapshot (lastUpdateId : UInt64)
  | reset
  | validate (first final : UInt64)
deriving DecidableEq, Repr

namespace SequenceCall

/-- The ids a validator may store stay below the largest 64-bit integer. -/
def Bounded : SequenceCall → Prop
  | onSnapshot lastUpdateId => lastUpdateId.toNat < 2 ^ 64 - 1
  | reset => True
  | validate _ final => final.toNat < 2 ^ 64 - 1

/-- The id of a snapshot call. -/
def snapshotId? : SequenceCall → Option UInt64
  | onSnapshot lastUpdateId => some lastUpdateId
  | _ => none

end SequenceCall

/-- The validator driven by its calls; only `validate` has a result. -/
def validatorMachine : Machine SequenceValidator SequenceCall (Option ValidateResult) where
  step v
    | .onSnapshot lastUpdateId => (v.onSnapshot lastUpdateId, none)
    | .reset => (v.reset, none)
    | .validate first final => ((v.validate first final).2, some (v.validate first final).1)

/-- One call as a run records it. -/
abbrev SequenceEvent := Event SequenceValidator SequenceCall (Option ValidateResult)

/-- The range of a delta that returned `Apply`. -/
def SequenceEvent.applied? (event : SequenceEvent) : Option (UInt64 × UInt64) :=
  match event.input, event.output with
  | .validate first final, some .apply => some (first, final)
  | _, _ => none

/-- The id of the latest snapshot and the ranges of the deltas that returned `Apply` since then. -/
def appliedSince (past : List SequenceEvent) : Option (UInt64 × List (UInt64 × UInt64)) :=
  past.foldl (fun session event =>
    match event.input.snapshotId? with
    | some snapshotId => some (snapshotId, [])
    | none => session.map fun (snapshotId, ranges) =>
        (snapshotId, ranges ++ event.applied?.toList)) none

def firstId (range : UInt64 × UInt64) : ℕ := range.1.toNat

def finalId (range : UInt64 × UInt64) : ℕ := range.2.toNat

/-- The ranges bridge from the snapshot id past it and are consecutive up to `last`. -/
structure Bridged (snapshotId : UInt64) (ranges : List (UInt64 × UInt64)) (last : UInt64) :
    Prop where
  nonempty : ranges ≠ []
  bridges : ∀ first rest, ranges = first :: rest →
    firstId first ≤ snapshotId.toNat + 1 ∧ snapshotId.toNat < finalId first ∧
      Consecutive firstId finalId (finalId first) rest
  reaches : reach finalId snapshotId.toNat ranges = last.toNat

namespace Bridged

variable {snapshotId last : UInt64} {ranges : List (UInt64 × UInt64)}

/-- The delta that bridges out of a snapshot. -/
theorem singleton {first final : UInt64} (begins : first.toNat ≤ snapshotId.toNat + 1)
    (past : snapshotId.toNat < final.toNat) : Bridged snapshotId [(first, final)] final where
  nonempty := List.cons_ne_nil _ _
  bridges := by
    intro head rest same
    obtain ⟨rfl, rfl⟩ := List.cons.inj same
    exact ⟨begins, past, trivial⟩
  reaches := rfl

/-- The delta that begins one past the last one. -/
theorem concat (bridged : Bridged snapshotId ranges last) {first final : UInt64}
    (follows : first.toNat = last.toNat + 1) :
    Bridged snapshotId (ranges ++ [(first, final)]) final where
  nonempty := by simp
  bridges := by
    intro head rest same
    obtain ⟨begin, tail, rfl⟩ := List.exists_cons_of_ne_nil bridged.nonempty
    obtain ⟨rfl, rfl⟩ := List.cons.inj same
    obtain ⟨begins, past, consecutive⟩ := bridged.bridges _ _ rfl
    refine ⟨begins, past, consecutive.concat ?_⟩
    have reached := bridged.reaches
    rw [reach_cons] at reached
    rw [reached]
    exact follows
  reaches := reach_append_singleton finalId snapshotId.toNat ranges (first, final)

/-- Bridged ranges leave no hole between the snapshot and their end. -/
theorem covers (bridged : Bridged snapshotId ranges last) {id : UInt64} (after : snapshotId < id)
    (upto : id ≤ last) : ∃ range ∈ ranges, range.1 ≤ id ∧ id ≤ range.2 := by
  obtain ⟨first, rest, rfl⟩ := List.exists_cons_of_ne_nil bridged.nonempty
  obtain ⟨begins, -, consecutive⟩ := bridged.bridges first rest rfl
  have reached := bridged.reaches
  rw [reach_cons] at reached
  rw [UInt64.lt_iff_toNat_lt] at after
  rw [UInt64.le_iff_toNat_le] at upto
  rcases le_or_gt id.toNat (finalId first) with inside | beyond
  · refine ⟨first, List.mem_cons_self, ?_, UInt64.le_iff_toNat_le.mpr inside⟩
    exact UInt64.le_iff_toNat_le.mpr (le_trans begins after)
  · obtain ⟨range, member, low, high⟩ := consecutive.covers beyond (reached ▸ upto)
    exact ⟨range, List.mem_cons_of_mem _ member, UInt64.le_iff_toNat_le.mpr low,
      UInt64.le_iff_toNat_le.mpr high⟩

end Bridged

/-- What the past of a run says about the state it reached. -/
def Vouched (past : List SequenceEvent) : ValidationState → Prop
  | .bridging snapshotId =>
    appliedSince past = some (snapshotId, []) ∧ snapshotId.toNat < 2 ^ 64 - 1
  | .active last => ∃ snapshotId ranges, appliedSince past = some (snapshotId, ranges) ∧
      Bridged snapshotId ranges last ∧ last.toNat < 2 ^ 64 - 1
  | _ => True

/-- A delta that was not applied leaves the ranges of a run as they were. -/
private theorem appliedSince_quiet {past : List SequenceEvent} {event : SequenceEvent}
    (delta : event.input.snapshotId? = none) (quiet : event.applied? = none) :
    appliedSince (past ++ [event]) = appliedSince past := by
  simp only [appliedSince, List.foldl_append, List.foldl_cons, List.foldl_nil, delta, quiet,
    Option.toList_none, List.append_nil, Option.map_id']

private theorem appliedSince_applied {past : List SequenceEvent} {event : SequenceEvent}
    {snapshotId : UInt64} {ranges : List (UInt64 × UInt64)} {range : UInt64 × UInt64}
    (known : appliedSince past = some (snapshotId, ranges))
    (delta : event.input.snapshotId? = none) (applied : event.applied? = some range) :
    appliedSince (past ++ [event]) = some (snapshotId, ranges ++ [range]) := by
  simp only [appliedSince] at known ⊢
  simp only [List.foldl_append, List.foldl_cons, List.foldl_nil, known, delta, applied,
    Option.map_some, Option.toList_some]

/-- A state that stays is vouched for by a past with the same ranges. -/
private theorem Vouched.of_quiet {past later : List SequenceEvent} {state : ValidationState}
    (vouched : Vouched past state) (quiet : appliedSince later = appliedSince past) :
    Vouched later state := by
  cases state with
  | awaitingSnapshot => trivial
  | stale lastValid => trivial
  | bridging snapshotId => exact ⟨quiet.trans vouched.1, vouched.2⟩
  | active last =>
    obtain ⟨snapshotId, ranges, known, bridged⟩ := vouched
    exact ⟨snapshotId, ranges, quiet.trans known, bridged⟩

/-- One delta keeps the past and the state in step. -/
private theorem validate_vouched {past : List SequenceEvent} {v : SequenceValidator}
    (vouched : Vouched past v.state) {first final : UInt64}
    (room : final.toNat < 2 ^ 64 - 1) :
    Vouched (past ++ [⟨v, .validate first final, some (v.validate first final).1⟩])
      (v.validate first final).2.state := by
  rcases v.validate_cases first final with ⟨same, blocked⟩ | ⟨last, same, -⟩ |
      ⟨last, same, ⟨bridging, late, joins⟩ | ⟨active, follows⟩⟩ | ⟨last, same, -⟩
  · rw [same]
    rcases blocked with waiting | ⟨last, stale⟩
    · rw [waiting]
      trivial
    · rw [stale]
      trivial
  · rw [same]
    exact vouched.of_quiet (appliedSince_quiet rfl rfl)
  · rw [bridging] at vouched
    obtain ⟨known, small⟩ := vouched
    have next : (last + 1).toNat = last.toNat + 1 := UInt64.toNat_succ (by omega)
    rw [UInt64.le_iff_toNat_le, next] at joins
    rw [same]
    exact ⟨last, [(first, final)], appliedSince_applied known rfl rfl,
      Bridged.singleton joins (UInt64.lt_iff_toNat_lt.mp late), room⟩
  · rw [active] at vouched
    obtain ⟨snapshotId, ranges, known, bridged, small⟩ := vouched
    have next : (last + 1).toNat = last.toNat + 1 := UInt64.toNat_succ (by omega)
    rw [same]
    refine ⟨snapshotId, ranges ++ [(first, final)], appliedSince_applied known rfl rfl, ?_, room⟩
    exact bridged.concat (follows ▸ next)
  · rw [same]
    trivial

/-- One call keeps the past and the state in step. -/
private theorem step_vouched {past : List SequenceEvent} {v : SequenceValidator}
    {call : SequenceCall}
    (vouched : Vouched past v.state) (bounded : call.Bounded) :
    Vouched (past ++ [⟨v, call, validatorMachine.answer v call⟩])
      (validatorMachine.next v call).state := by
  cases call with
  | onSnapshot lastUpdateId =>
    refine ⟨?_, bounded⟩
    simp only [appliedSince, List.foldl_append, List.foldl_cons, List.foldl_nil,
      SequenceCall.snapshotId?]
  | reset => trivial
  | validate first final => exact validate_vouched vouched bounded

/-- The state of every run is vouched for by its past. -/
theorem run_vouched {calls : List SequenceCall} (bounded : ∀ call ∈ calls, call.Bounded) :
    Vouched (validatorMachine.history .new calls) (validatorMachine.final .new calls).state := by
  have general := validatorMachine.history_induction SequenceValidator.new
    (P := fun past v => (∀ event ∈ past, event.input.Bounded) → Vouched past v.state)
    (fun _ => trivial)
    (by
      intro past v call ih proper
      have earlier := ih fun event member => proper event (List.mem_append_left _ member)
      have last : (Event.mk v call (validatorMachine.answer v call)).input.Bounded :=
        proper _ (List.mem_append_right _ List.mem_cons_self)
      exact step_vouched earlier last)
    calls
  apply general
  intro event member
  apply bounded
  rw [← validatorMachine.history_inputs SequenceValidator.new calls]
  exact List.mem_map_of_mem member

/-- A validator that applies nothing until it is given a snapshot. -/
def SequenceValidator.Blocked (v : SequenceValidator) : Prop :=
  v.state = .awaitingSnapshot ∨ ∃ lastValid, v.state = .stale lastValid

/-- A blocked validator that is given no snapshot. -/
def SequenceValidator.Quiet (v : SequenceValidator) (calls : List SequenceCall) : Prop :=
  v.Blocked ∧ ∀ call ∈ calls, call.snapshotId? = none

/-- A gap blocks the validator. -/
private theorem blocked_of_gap {v : SequenceValidator} {call : SequenceCall}
    {expected actual lastValid : UInt64}
    (gap : validatorMachine.answer v call = some (.gap expected actual lastValid)) :
    (validatorMachine.next v call).Blocked := by
  cases call with
  | onSnapshot lastUpdateId => exact absurd gap (by simp [answer, validatorMachine])
  | reset => exact absurd gap (by simp [answer, validatorMachine])
  | validate first final =>
    have gap : (v.validate first final).1 = .gap expected actual lastValid := Option.some.inj gap
    change (v.validate first final).2.Blocked
    rcases v.validate_cases first final with
      ⟨same, -⟩ | ⟨last, same, -⟩ | ⟨last, same, -⟩ | ⟨last, same, -⟩ <;> rw [same] at gap ⊢
    case inr.inr.inr => exact .inr ⟨last, rfl⟩
    all_goals cases gap

/-- A blocked validator stays blocked until the next snapshot. -/
private theorem blocked_next {v : SequenceValidator} (blocked : v.Blocked) {call : SequenceCall}
    (delta : call.snapshotId? = none) : (validatorMachine.next v call).Blocked := by
  obtain ⟨state⟩ := v
  cases call with
  | onSnapshot lastUpdateId => exact absurd delta (by simp [SequenceCall.snapshotId?])
  | reset => left; rfl
  | validate first final =>
    rcases blocked with rfl | ⟨lastValid, rfl⟩
    · left; rfl
    · right; exact ⟨lastValid, rfl⟩

/-- A blocked validator applies nothing. -/
private theorem answer_of_blocked {v : SequenceValidator} (blocked : v.Blocked)
    (call : SequenceCall) :
    validatorMachine.answer v call ≠ some .apply := by
  obtain ⟨state⟩ := v
  cases call with
  | onSnapshot lastUpdateId => simp [answer, validatorMachine]
  | reset => simp [answer, validatorMachine]
  | validate first final =>
    rcases blocked with rfl | ⟨lastValid, rfl⟩ <;>
      simp [answer, validatorMachine, SequenceValidator.validate]

/-- Between a gap and a later applied delta there is a snapshot. -/
theorem snapshot_between {start : SequenceValidator} {calls : List SequenceCall}
    {before between after : List SequenceEvent} {gap later : SequenceEvent}
    (split : validatorMachine.history start calls = before ++ gap :: (between ++ later :: after))
    {expected actual lastValid : UInt64}
    (gapped : gap.output = some (.gap expected actual lastValid))
    (applied : later.output = some .apply) : ∃ event ∈ between, event.input.snapshotId? ≠ none := by
  by_contra missing
  obtain ⟨earlier, call, rest, rfl, rfl, rfl, tail⟩ := validatorMachine.history_split split
  obtain ⟨inner, last, others, rfl, rfl, rfl, -⟩ := validatorMachine.history_split tail.symm
  have deltas : ∀ call ∈ inner, call.snapshotId? = none := by
    intro call member
    rw [← validatorMachine.history_inputs _ inner] at member
    obtain ⟨event, inside, rfl⟩ := List.mem_map.mp member
    by_contra some
    exact missing ⟨event, inside, some⟩
  have kept : ∀ (v : SequenceValidator) (call : SequenceCall) (rest : List SequenceCall),
      v.Quiet (call :: rest) → (validatorMachine.next v call).Quiet rest := by
    rintro v call rest ⟨blocked, quiet⟩
    refine ⟨blocked_next blocked (quiet call List.mem_cons_self), ?_⟩
    exact fun other member => quiet other (List.mem_cons_of_mem _ member)
  have blocked := validatorMachine.admissible_final kept ⟨blocked_of_gap gapped, deltas⟩
  exact answer_of_blocked blocked.1 last applied

/-- While a run is active, the deltas applied since the latest snapshot cover every update id after
it up to the last one; after a gap nothing is applied until the next snapshot. -/
theorem no_silent_gap (calls : List SequenceCall) (bounded : ∀ call ∈ calls, call.Bounded) :
    (∀ last, (validatorMachine.final .new calls).state = .active last →
      ∃ snapshotId ranges,
        appliedSince (validatorMachine.history .new calls) = some (snapshotId, ranges) ∧
          Bridged snapshotId ranges last ∧
          ∀ id, snapshotId < id → id ≤ last → ∃ range ∈ ranges, range.1 ≤ id ∧ id ≤ range.2) ∧
      ∀ before gap between later after,
        validatorMachine.history .new calls = before ++ gap :: (between ++ later :: after) →
        (∃ expected actual lastValid, gap.output = some (.gap expected actual lastValid)) →
        later.output = some .apply → ∃ event ∈ between, event.input.snapshotId? ≠ none := by
  constructor
  · intro last active
    have vouched := run_vouched bounded
    rw [active] at vouched
    obtain ⟨snapshotId, ranges, known, bridged, -⟩ := vouched
    exact ⟨snapshotId, ranges, known, bridged, fun id after upto => bridged.covers after upto⟩
  · rintro before gap between later after split ⟨expected, actual, lastValid, gapped⟩ applied
    exact snapshot_between split gapped applied

/-- A run that bridges from a snapshot, continues, meets a gap and recovers. -/
theorem no_silent_gap_recovered :
    (validatorMachine.final .new [.onSnapshot 10, .validate 9 12, .validate 13 15,
      .validate 20 21, .validate 22 23, .onSnapshot 30, .validate 28 33]).state = .active 33 ∧
      ∃ snapshotId ranges, appliedSince (validatorMachine.history .new [.onSnapshot 10,
        .validate 9 12, .validate 13 15, .validate 20 21, .validate 22 23, .onSnapshot 30,
        .validate 28 33]) = some (snapshotId, ranges) ∧ Bridged snapshotId ranges 33 := by
  have active : (validatorMachine.final .new [.onSnapshot 10, .validate 9 12, .validate 13 15,
      .validate 20 21, .validate 22 23, .onSnapshot 30, .validate 28 33]).state = .active 33 := by
    decide
  refine ⟨active, ?_⟩
  obtain ⟨snapshotId, ranges, known, bridged, -⟩ :=
    (no_silent_gap _ (by simp [SequenceCall.Bounded])).1 33 active
  exact ⟨snapshotId, ranges, known, bridged⟩

end TradingConnectivity.MarketData
