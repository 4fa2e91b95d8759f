import TradingConnectivity.MarketData.NoSilentGap

/-! # The position of a validator

The ids a validator is given come unchecked from the wire. Its position, the last valid id, is meant
to move forward until the next snapshot or reset, and its sums are meant to stay in range. Both fail
on malformed events that an active validator accepts. An active spot validator also discards
whatever begins at or before its position.
-/

namespace TradingConnectivity.MarketData

open Machine

/-- `x + 1` in checked arithmetic. -/
def checkedSucc (x : UInt64) : Option UInt64 := if x.toNat + 1 < 2 ^ 64 then some (x + 1) else none

private theorem checkedSucc_of_lt {x : UInt64} (room : x.toNat + 1 < 2 ^ 64) :
    checkedSucc x = some (x + 1) := if_pos room

private theorem checkedSucc_of_lt_id {x y : UInt64} (below : ¬y ≤ x) : checkedSucc x = some
    (x + 1) := by
  apply checkedSucc_of_lt
  have bound := y.toNat_lt
  rw [UInt64.le_iff_toNat_le] at below
  omega

/-- The position has not moved backwards. -/
def ValidationState.Keeps (before after : ValidationState) : Prop :=
  ∀ id ∈ before.lastValidId, ∃ later ∈ after.lastValidId, id ≤ later

namespace ValidationState.Keeps

theorem refl (state : ValidationState) : state.Keeps state :=
  fun id known => ⟨id, known, UInt64.le_refl id⟩

theorem trans {first second third : ValidationState} (now : first.Keeps second)
    (later : second.Keeps third) : first.Keeps third := by
  intro id known
  obtain ⟨next, reached, low⟩ := now id known
  obtain ⟨last, found, high⟩ := later next reached
  exact ⟨last, found, UInt64.le_trans low high⟩

private theorem active_iff {before after : UInt64} :
    (ValidationState.active before).Keeps (.active after) ↔ before ≤ after := by
  constructor
  · intro keeps
    obtain ⟨later, found, low⟩ := keeps before rfl
    obtain rfl := Option.some.inj found
    exact low
  · rintro low id ⟨⟩
    exact ⟨after, rfl, low⟩

end ValidationState.Keeps

/-! ## The spot validator -/

namespace SequenceValidator

/-- `validate` in checked arithmetic; nothing is returned when a sum overflows. -/
def validateChecked (v : SequenceValidator) (first final : UInt64) :
    Option (ValidateResult × SequenceValidator) :=
  match v.state with
  | .awaitingSnapshot => some (.buffering, v)
  | .bridging snapshotId =>
    if final ≤ snapshotId then some (.discard, v)
    else do
      if first ≤ (← checkedSucc snapshotId) then return (.apply, ⟨.active final⟩)
      else return (.gap (← checkedSucc snapshotId) first snapshotId, ⟨.stale snapshotId⟩)
  | .active lastFinal => do
    let expected ← checkedSucc lastFinal
    if first = expected then return (.apply, ⟨.active final⟩)
    else if first > expected then return (.gap expected first lastFinal, ⟨.stale lastFinal⟩)
    else return (.discard, v)
  | .stale _ => some (.buffering, v)

/-- The validator is active at an id that has a successor. -/
def HasRoom (v : SequenceValidator) : Prop :=
  ∀ lastFinal, v.state = .active lastFinal → lastFinal.toNat + 1 < 2 ^ 64

/-- Only an active validator can overflow. -/
theorem validateChecked_eq (v : SequenceValidator) (first final : UInt64) :
    (v.HasRoom → v.validateChecked first final = some (v.validate first final)) ∧
      (¬v.HasRoom → v.validateChecked first final = none) := by
  obtain ⟨state⟩ := v
  cases state with
  | awaitingSnapshot => exact ⟨fun _ => rfl, fun none => absurd nofun none⟩
  | stale lastValid => exact ⟨fun _ => rfl, fun none => absurd nofun none⟩
  | bridging snapshotId =>
    refine ⟨fun _ => ?_, fun none => absurd nofun none⟩
    simp only [validateChecked, validate]
    by_cases early : final ≤ snapshotId
    · rw [if_pos early, if_pos early]
    · rw [if_neg early, if_neg early, checkedSucc_of_lt_id early]
      simp only [bind, Option.bind]
      split <;> rfl
  | active lastFinal =>
    constructor
    · intro room
      simp only [validateChecked, validate, checkedSucc_of_lt (room lastFinal rfl), bind,
        Option.bind]
      split
      · rfl
      · split <;> rfl
    · intro full
      have tooHigh : ¬lastFinal.toNat + 1 < 2 ^ 64 := by
        intro room
        apply full
        rintro _ ⟨⟩
        exact room
      simp only [validateChecked, checkedSucc, if_neg tooHigh, bind, Option.bind]

/-- The event does not take an active validator backwards. -/
def Forward (v : SequenceValidator) (first final : UInt64) : Prop :=
  ∀ lastFinal, v.state = .active lastFinal → first = lastFinal + 1 → lastFinal ≤ final

private theorem keeps_iff (v : SequenceValidator) (first final : UInt64) :
    v.state.Keeps (v.validate first final).2.state ↔ v.Forward first final := by
  obtain ⟨state⟩ := v
  cases state with
  | awaitingSnapshot => exact ⟨fun _ => nofun, fun _ => nofun⟩
  | stale lastValid => exact ⟨fun _ => nofun, fun _ => .refl _⟩
  | bridging snapshotId =>
    refine ⟨fun _ => nofun, fun _ => ?_⟩
    simp only [validate]
    by_cases early : final ≤ snapshotId
    · rw [if_pos early]
      exact .refl _
    · rw [if_neg early]
      split
      · rintro id ⟨⟩
        exact ⟨final, rfl, UInt64.le_of_lt (UInt64.not_le.mp early)⟩
      · rintro id ⟨⟩
        exact ⟨snapshotId, rfl, UInt64.le_refl _⟩
  | active lastFinal =>
    simp only [validate, Forward, ValidationState.active.injEq, forall_eq']
    by_cases follows : first = lastFinal + 1
    · rw [if_pos follows, ValidationState.Keeps.active_iff]
      exact ⟨fun low _ => low, fun forward => forward follows⟩
    · rw [if_neg follows]
      refine ⟨fun _ same => absurd same follows, fun _ => ?_⟩
      split
      · rintro id ⟨⟩
        exact ⟨lastFinal, rfl, UInt64.le_refl _⟩
      · exact .refl _

end SequenceValidator

/-! ## The futures validator -/

namespace FuturesSequenceValidator

/-- `validate` in checked arithmetic. -/
def validateChecked (v : FuturesSequenceValidator) (first final prevFinal : UInt64) :
    Option (ValidateResult × FuturesSequenceValidator) :=
  match v.state with
  | .awaitingSnapshot => some (.buffering, v)
  | .bridging snapshotId =>
    if final ≤ snapshotId then some (.discard, v)
    else do
      if first ≤ (← checkedSucc snapshotId) then return (.apply, ⟨.active final⟩)
      else return (.gap snapshotId prevFinal snapshotId, ⟨.stale snapshotId⟩)
  | .active lastFinal =>
    if prevFinal = lastFinal then some (.apply, ⟨.active final⟩)
    else if prevFinal < lastFinal then some (.discard, v)
    else some (.gap lastFinal prevFinal lastFinal, ⟨.stale lastFinal⟩)
  | .stale _ => some (.buffering, v)

/-- No sum of the futures validator overflows. -/
theorem validateChecked_eq (v : FuturesSequenceValidator) (first final prevFinal : UInt64) :
    v.validateChecked first final prevFinal = some (v.validate first final prevFinal) := by
  obtain ⟨state⟩ := v
  cases state with
  | awaitingSnapshot => rfl
  | stale lastValid => rfl
  | bridging snapshotId =>
    simp only [validateChecked, validate]
    by_cases early : final ≤ snapshotId
    · rw [if_pos early, if_pos early]
    · rw [if_neg early, if_neg early, checkedSucc_of_lt_id early]
      simp only [bind, Option.bind]
      split <;> rfl
  | active lastFinal =>
    simp only [validateChecked, validate]
    split
    · rfl
    · split <;> rfl

/-- The event does not take an active validator backwards. -/
def Forward (v : FuturesSequenceValidator) (final prevFinal : UInt64) : Prop :=
  ∀ lastFinal, v.state = .active lastFinal → prevFinal = lastFinal → lastFinal ≤ final

private theorem keeps_iff (v : FuturesSequenceValidator) (first final prevFinal : UInt64) :
    v.state.Keeps (v.validate first final prevFinal).2.state ↔ v.Forward final prevFinal := by
  obtain ⟨state⟩ := v
  cases state with
  | awaitingSnapshot => exact ⟨fun _ => nofun, fun _ => nofun⟩
  | stale lastValid => exact ⟨fun _ => nofun, fun _ => .refl _⟩
  | bridging snapshotId =>
    refine ⟨fun _ => nofun, fun _ => ?_⟩
    simp only [validate]
    by_cases early : final ≤ snapshotId
    · rw [if_pos early]
      exact .refl _
    · rw [if_neg early]
      split
      · rintro id ⟨⟩
        exact ⟨final, rfl, UInt64.le_of_lt (UInt64.not_le.mp early)⟩
      · rintro id ⟨⟩
        exact ⟨snapshotId, rfl, UInt64.le_refl _⟩
  | active lastFinal =>
    simp only [validate, Forward, ValidationState.active.injEq, forall_eq']
    by_cases follows : prevFinal = lastFinal
    · rw [if_pos follows, ValidationState.Keeps.active_iff]
      exact ⟨fun low _ => low, fun forward => forward follows⟩
    · rw [if_neg follows]
      refine ⟨fun _ same => absurd same follows, fun _ => ?_⟩
      split
      · exact .refl _
      · rintro id ⟨⟩
        exact ⟨lastFinal, rfl, UInt64.le_refl _⟩

end FuturesSequenceValidator

/-! ## Runs -/

/-- The calls a futures validator receives. -/
inductive FuturesCall
  | onSnapshot (lastUpdateId : UInt64)
  | reset
  | validate (first final prevFinal : UInt64)
deriving DecidableEq, Repr

/-- The futures validator driven by its calls. -/
def futuresCallMachine : Machine FuturesSequenceValidator FuturesCall (Option ValidateResult) where
  step v
    | .onSnapshot lastUpdateId => (v.onSnapshot lastUpdateId, none)
    | .reset => (v.reset, none)
    | .validate first final prevFinal =>
      ((v.validate first final prevFinal).2, some (v.validate first final prevFinal).1)

def SequenceCall.IsValidate : SequenceCall → Prop
  | validate _ _ => True
  | _ => False

def FuturesCall.IsValidate : FuturesCall → Prop
  | validate _ _ _ => True
  | _ => False

/-- No sum of a spot run overflows, and its position moves back by a snapshot or reset only. -/
structure SpotSound (calls : List SequenceCall) : Prop where
  checked : ∀ event ∈ validatorMachine.history .new calls, ∀ first final,
    event.input = .validate first final →
      event.before.validateChecked first final = some (event.before.validate first final)
  monotone : ∀ earlier between later, calls = earlier ++ (between ++ later) →
    (∀ call ∈ between, call.IsValidate) →
      (validatorMachine.final .new earlier).state.Keeps
        (validatorMachine.final .new (earlier ++ between)).state

/-- The same of a futures run. -/
structure FuturesSound (calls : List FuturesCall) : Prop where
  checked : ∀ event ∈ futuresCallMachine.history .new calls, ∀ first final prevFinal,
    event.input = .validate first final prevFinal →
      event.before.validateChecked first final prevFinal =
        some (event.before.validate first final prevFinal)
  monotone : ∀ earlier between later, calls = earlier ++ (between ++ later) →
    (∀ call ∈ between, call.IsValidate) →
      (futuresCallMachine.final .new earlier).state.Keeps
        (futuresCallMachine.final .new (earlier ++ between)).state

/-- Every event a spot run validates meets a validator that has room and takes it forward. -/
def SpotForward (calls : List SequenceCall) : Prop :=
  ∀ event ∈ validatorMachine.history .new calls, ∀ first final,
    event.input = .validate first final →
      event.before.HasRoom ∧ event.before.Forward first final

/-- Every event a futures run validates takes the validator forward. -/
def FuturesForward (calls : List FuturesCall) : Prop :=
  ∀ event ∈ futuresCallMachine.history .new calls, ∀ first final prevFinal,
    event.input = .validate first final prevFinal → event.before.Forward final prevFinal

private theorem spotSound_iff (calls : List SequenceCall) :
    SpotSound calls ↔ SpotForward calls := by
  have stretches : (∀ earlier between later, calls = earlier ++ (between ++ later) →
      (∀ call ∈ between, call.IsValidate) →
        (validatorMachine.final .new earlier).state.Keeps
          (validatorMachine.final .new (earlier ++ between)).state) ↔
      ∀ event ∈ validatorMachine.history .new calls, event.input.IsValidate →
        event.before.state.Keeps (validatorMachine.next event.before event.input).state :=
    validatorMachine.ordered_stretches_iff (R := fun v w => v.state.Keeps w.state)
      (fun _ => .refl _) (fun now later => now.trans later)
  constructor
  · rintro ⟨checked, monotone⟩ ⟨v, call, output⟩ member first final rfl
    constructor
    · by_contra full
      have overflows := (v.validateChecked_eq first final).2 full
      rw [checked _ member first final rfl] at overflows
      cases overflows
    · exact (v.keeps_iff first final).mp (stretches.mp monotone _ member trivial)
  · intro forward
    refine ⟨?_, stretches.mpr ?_⟩
    · rintro ⟨v, call, output⟩ member first final rfl
      exact (v.validateChecked_eq first final).1 (forward _ member first final rfl).1
    · rintro ⟨v, call, output⟩ member quiet
      cases call with
      | onSnapshot lastUpdateId => exact absurd quiet id
      | reset => exact absurd quiet id
      | validate first final =>
        exact (v.keeps_iff first final).mpr (forward _ member first final rfl).2

private theorem futuresSound_iff (calls : List FuturesCall) :
    FuturesSound calls ↔ FuturesForward calls := by
  have stretches : (∀ earlier between later, calls = earlier ++ (between ++ later) →
      (∀ call ∈ between, call.IsValidate) →
        (futuresCallMachine.final .new earlier).state.Keeps
          (futuresCallMachine.final .new (earlier ++ between)).state) ↔
      ∀ event ∈ futuresCallMachine.history .new calls, event.input.IsValidate →
        event.before.state.Keeps (futuresCallMachine.next event.before event.input).state :=
    futuresCallMachine.ordered_stretches_iff (R := fun v w => v.state.Keeps w.state)
      (fun _ => .refl _) (fun now later => now.trans later)
  constructor
  · rintro ⟨checked, monotone⟩ ⟨v, call, output⟩ member first final prevFinal rfl
    exact (v.keeps_iff first final prevFinal).mp (stretches.mp monotone _ member trivial)
  · intro forward
    refine ⟨?_, stretches.mpr ?_⟩
    · rintro ⟨v, call, output⟩ member first final prevFinal rfl
      exact v.validateChecked_eq first final prevFinal
    · rintro ⟨v, call, output⟩ member quiet
      cases call with
      | onSnapshot lastUpdateId => exact absurd quiet id
      | reset => exact absurd quiet id
      | validate first final prevFinal =>
        exact (v.keeps_iff first final prevFinal).mpr (forward _ member first final prevFinal rfl)

theorem SequenceValidator.HasRoom.validate {v : SequenceValidator} (room : v.HasRoom)
    {first final : UInt64} (below : final.toNat + 1 < 2 ^ 64) :
    (v.validate first final).2.HasRoom := by
  rcases v.validate_cases first final with
    ⟨same, -⟩ | ⟨last, same, -⟩ | ⟨last, same, -⟩ | ⟨last, same, -⟩ <;> rw [same]
  · exact room
  · exact room
  · rintro _ ⟨⟩
    exact below
  · rintro _ ⟨⟩

/-- Events that are not malformed are safe: none ends before it begins or at the largest id. -/
theorem spotForward_of_ordered {calls : List SequenceCall}
    (ordered : ∀ first final, .validate first final ∈ calls →
      first ≤ final ∧ final.toNat + 1 < 2 ^ 64) : SpotForward calls := by
  have rooms : ∀ (v : SequenceValidator) (earlier : List SequenceCall), v.HasRoom →
      (∀ call ∈ earlier, call ∈ calls) → (validatorMachine.final v earlier).HasRoom := by
    intro v earlier
    induction earlier generalizing v with
    | nil => exact fun room _ => room
    | cons call rest ih =>
      intro room inside
      refine ih _ ?_ fun other member => inside other (List.mem_cons_of_mem _ member)
      cases call with
      | onSnapshot lastUpdateId => nofun
      | reset => nofun
      | validate first final => exact room.validate (ordered _ _ (inside _ List.mem_cons_self)).2
  intro event member first final same
  obtain ⟨before, after, split⟩ := List.append_of_mem member
  obtain ⟨earlier, input, later, rfl, -, rfl, -⟩ := validatorMachine.history_split split
  obtain rfl : input = .validate first final := same
  have room := rooms .new earlier nofun fun call inside => List.mem_append_left _ inside
  refine ⟨room, ?_⟩
  intro lastFinal active follows
  have next := UInt64.toNat_succ (room lastFinal active)
  have low := (ordered first final (List.mem_append_right _ List.mem_cons_self)).1
  rw [UInt64.le_iff_toNat_le] at low ⊢
  rw [follows, next] at low
  omega

/-- A validator overflows or moves backwards exactly when an active one is given an event that
begins where it expects one and ends below its position, or when an active spot validator has
reached the largest id. -/
theorem positions_monotone_iff (spot : List SequenceCall) (futures : List FuturesCall) :
    (SpotSound spot ↔ SpotForward spot) ∧ (FuturesSound futures ↔ FuturesForward futures) :=
  ⟨spotSound_iff spot, futuresSound_iff futures⟩

/-- An event that ends below its beginning takes both validators back, and the largest id overflows
the spot validator. -/
theorem positions_move_back :
    ¬SpotSound [.onSnapshot 100, .validate 101 110, .validate 111 50] ∧
      ¬SpotSound [.onSnapshot 100, .validate 101 18446744073709551615, .validate 5 6] ∧
      ¬FuturesSound [.onSnapshot 100, .validate 101 110 100, .validate 111 50 110] := by
  refine ⟨?_, ?_, ?_⟩
  · intro sound
    have event := (spotSound_iff _).mp sound ⟨⟨.active 110⟩, .validate 111 50, some .apply⟩
      (List.mem_of_getElem? (i := 2) rfl) 111 50 rfl
    exact absurd (event.2 110 rfl rfl) (by decide)
  · intro sound
    have event := (spotSound_iff _).mp sound
      ⟨⟨.active 18446744073709551615⟩, .validate 5 6, some (.gap 0 5 18446744073709551615)⟩
      (List.mem_of_getElem? (i := 2) rfl) 5 6 rfl
    exact absurd (event.1 _ rfl) (by decide)
  · intro sound
    have event := (futuresSound_iff _).mp sound
      ⟨⟨.active 110⟩, .validate 111 50 110, some .apply⟩ (List.mem_of_getElem? (i := 2) rfl)
      111 50 110 rfl
    exact absurd (event 110 rfl rfl) (by decide)

/-! ## Discarding -/

namespace SequenceValidator

/-- The two ways to discard an event, and what the validator then vouches for. -/
theorem validate_discard_iff (v : SequenceValidator) (first final : UInt64) :
    (v.validate first final).1 = .discard ↔ ∃ last, v.lastValidId = some last ∧
      (v.state = .bridging last ∧ final ≤ last ∨
        v.state = .active last ∧ first ≤ last ∧ last.toNat + 1 < 2 ^ 64) := by
  have below (last : UInt64) : first < last + 1 ↔ first ≤ last ∧ last.toNat + 1 < 2 ^ 64 := by
    have room := last.toNat_lt
    rw [UInt64.lt_iff_toNat_lt, UInt64.le_iff_toNat_le, UInt64.toNat_add, UInt64.toNat_one]
    omega
  simp only [← below]
  constructor
  · intro discarded
    rcases v.validate_cases first final with
      ⟨same, -⟩ | ⟨last, -, covered⟩ | ⟨last, same, -⟩ | ⟨last, same, -⟩
    · rw [same] at discarded
      cases discarded
    · refine ⟨last, ?_, covered⟩
      rcases covered with ⟨bridging, -⟩ | ⟨active, -⟩
      · rw [lastValidId, bridging, ValidationState.lastValidId]
      · rw [lastValidId, active, ValidationState.lastValidId]
    · rw [same] at discarded
      cases discarded
    · rw [same] at discarded
      cases discarded
  · rintro ⟨last, -, ⟨bridging, early⟩ | ⟨active, covered⟩⟩
    · simp only [validate, bridging, if_pos early]
    · have apart : first ≠ last + 1 := UInt64.ne_of_lt covered
      have behind : ¬first > last + 1 := UInt64.lt_asymm covered
      simp only [validate, active, if_neg apart, if_neg behind]

private theorem validate_of_discard {v : SequenceValidator} {first final : UInt64}
    (discarded : (v.validate first final).1 = .discard) : (v.validate first final).2 = v := by
  rcases v.validate_cases first final with
    ⟨same, -⟩ | ⟨last, same, -⟩ | ⟨last, same, -⟩ | ⟨last, same, -⟩ <;> rw [same] at discarded ⊢
  all_goals cases discarded

/-- What a bridging or an active validator does not discard it applies or reports. -/
theorem validate_of_not_discard {v : SequenceValidator} {last : UInt64}
    (live : v.state = .bridging last ∨ v.state = .active last) {first final : UInt64}
    (kept : (v.validate first final).1 ≠ .discard) :
    (v.validate first final).1 = .apply ∨
      ∃ expected actual lastValid,
        (v.validate first final).1 = .gap expected actual lastValid := by
  rcases v.validate_cases first final with
    ⟨-, blocked⟩ | ⟨last, same, -⟩ | ⟨last, same, -⟩ | ⟨last, same, -⟩
  · rcases live with live | live <;> rcases blocked with waiting | ⟨last, stale⟩
    · exact absurd (live.symm.trans waiting) nofun
    · exact absurd (live.symm.trans stale) nofun
    · exact absurd (live.symm.trans waiting) nofun
    · exact absurd (live.symm.trans stale) nofun
  · rw [same] at kept
    exact absurd rfl kept
  · rw [same]
    exact .inl rfl
  · rw [same]
    exact .inr ⟨_, _, _, rfl⟩

end SequenceValidator

/-- After any run the spot validator discards an event exactly if it is bridging and the event ends
at or before the snapshot, or if it is active and the event begins at or before its position; its
position then stays. Every other event is applied or reported once there is a position. -/
theorem discard_iff (calls : List SequenceCall) (first final : UInt64) :
    let v := validatorMachine.final .new calls
    ((v.validate first final).1 = .discard ↔ ∃ last, v.lastValidId = some last ∧
      (v.state = .bridging last ∧ final ≤ last ∨
        v.state = .active last ∧ first ≤ last ∧ last.toNat + 1 < 2 ^ 64)) ∧
    ((v.validate first final).1 = .discard → (v.validate first final).2 = v) ∧
    ∀ last, v.state = .bridging last ∨ v.state = .active last →
      (v.validate first final).1 ≠ .discard →
      (v.validate first final).1 = .apply ∨ ∃ expected actual lastValid,
        (v.validate first final).1 = .gap expected actual lastValid := by
  intro v
  exact ⟨v.validate_discard_iff first final, v.validate_of_discard,
    fun last live => v.validate_of_not_discard live⟩

/-- An active validator discards an event whose last five ids it has not seen. -/
theorem discards_overlap :
    let v := validatorMachine.final .new [.onSnapshot 10, .validate 11 50]
    (40 : UInt64) ≤ 55 ∧ (v.validate 40 55).1 = .discard ∧
      ¬∃ last, v.lastValidId = some last ∧ (55 : UInt64) ≤ last := by
  decide

end TradingConnectivity.MarketData
