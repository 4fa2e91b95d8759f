import Mathlib.Data.List.Basic

/-! # Deterministic machines and their histories

A machine answers every input with an output and a next state. A run is recorded as its
history: one event for each input, with the state the input met. Three rules carry the
properties of runs. `history_induction` relates everything that happened so far to the state it
led to, `invariant` is its special case for a predicate on states, and `stutter_simulation`
compares two machines when some inputs of the first are invisible to the second.
-/

namespace TradingConnectivity

/-- A deterministic machine with states `σ`, inputs `ι` and outputs `ω`. -/
structure Machine (σ ι ω : Type*) where
  step : σ → ι → σ × ω

namespace Machine

variable {σ τ ι κ ω ψ α : Type*}

/-- One step as an observer records it. -/
structure Event (σ ι ω : Type*) where
  before : σ
  input : ι
  output : ω

/-- The state after one input. -/
def next (m : Machine σ ι ω) (state : σ) (input : ι) : σ := (m.step state input).1

/-- The answer to one input. -/
def answer (m : Machine σ ι ω) (state : σ) (input : ι) : ω := (m.step state input).2

/-- The state after a whole run. -/
def final (m : Machine σ ι ω) : σ → List ι → σ
  | state, [] => state
  | state, input :: rest => m.final (m.next state input) rest

/-- The events of a run, oldest first. -/
def history (m : Machine σ ι ω) : σ → List ι → List (Event σ ι ω)
  | _, [] => []
  | state, input :: rest =>
      ⟨state, input, m.answer state input⟩ :: m.history (m.next state input) rest

@[simp] theorem final_nil (m : Machine σ ι ω) (state : σ) : m.final state [] = state := rfl

@[simp] theorem final_cons (m : Machine σ ι ω) (state : σ) (input : ι) (rest : List ι) :
    m.final state (input :: rest) = m.final (m.next state input) rest := rfl

@[simp] theorem history_nil (m : Machine σ ι ω) (state : σ) : m.history state [] = [] := rfl

@[simp] theorem history_cons (m : Machine σ ι ω) (state : σ) (input : ι) (rest : List ι) :
    m.history state (input :: rest) =
      ⟨state, input, m.answer state input⟩ :: m.history (m.next state input) rest := rfl

theorem final_append (m : Machine σ ι ω) (state : σ) (first second : List ι) :
    m.final state (first ++ second) = m.final (m.final state first) second := by
  induction first generalizing state with
  | nil => rfl
  | cons input rest ih => exact ih (m.next state input)

theorem history_append (m : Machine σ ι ω) (state : σ) (first second : List ι) :
    m.history state (first ++ second) =
      m.history state first ++ m.history (m.final state first) second := by
  induction first generalizing state with
  | nil => rfl
  | cons input rest ih => exact congrArg _ (ih (m.next state input))

/-- A history records the inputs of its run. -/
theorem history_inputs (m : Machine σ ι ω) (state : σ) (inputs : List ι) :
    (m.history state inputs).map Event.input = inputs := by
  induction inputs generalizing state with
  | nil => rfl
  | cons input rest ih => simp only [history_cons, List.map_cons, ih]

/-- A history that is cut in two is the history of a run that is cut in two. -/
theorem history_eq_append (m : Machine σ ι ω) {start : σ} {inputs : List ι}
    {before after : List (Event σ ι ω)} (split : m.history start inputs = before ++ after) :
    ∃ earlier later, inputs = earlier ++ later ∧ before = m.history start earlier ∧
      after = m.history (m.final start earlier) later := by
  induction before generalizing start inputs with
  | nil => exact ⟨[], inputs, rfl, rfl, split.symm⟩
  | cons head before ih =>
    cases inputs with
    | nil => exact absurd split (List.cons_ne_nil head _).symm
    | cons input rest =>
      obtain ⟨rfl, tail⟩ := List.cons.inj split
      obtain ⟨earlier, later, rfl, rfl, same⟩ := ih tail
      exact ⟨input :: earlier, later, rfl, rfl, same⟩

/-- An event of a history splits its run into the inputs before it, its own and those after. -/
theorem history_split (m : Machine σ ι ω) {start : σ} {inputs : List ι}
    {before after : List (Event σ ι ω)} {event : Event σ ι ω}
    (split : m.history start inputs = before ++ event :: after) :
    ∃ earlier input later, inputs = earlier ++ input :: later ∧
      before = m.history start earlier ∧
      event = ⟨m.final start earlier, input, m.answer (m.final start earlier) input⟩ ∧
      after = m.history (m.next (m.final start earlier) input) later := by
  obtain ⟨earlier, rest, rfl, rfl, tail⟩ := m.history_eq_append split
  cases rest with
  | nil => exact absurd tail (List.cons_ne_nil event after)
  | cons input later =>
    obtain ⟨same, tail⟩ := List.cons.inj tail
    exact ⟨earlier, input, later, rfl, rfl, same, tail⟩

theorem output_of_mem_history (m : Machine σ ι ω) {start : σ} {inputs : List ι}
    {event : Event σ ι ω} (member : event ∈ m.history start inputs) :
    event.output = m.answer event.before event.input := by
  obtain ⟨before, after, split⟩ := List.append_of_mem member
  obtain ⟨earlier, input, later, -, -, rfl, -⟩ := m.history_split split
  rfl

/-- A point of a list that grew by one element is the new element, or lies before it. -/
theorem concat_split {past before after : List α} {last a : α}
    (split : past ++ [last] = before ++ a :: after) :
    (a = last ∧ before = past) ∨
      ∃ inner, after = inner ++ [last] ∧ past = before ++ a :: inner := by
  rcases List.eq_nil_or_concat after with rfl | ⟨inner, other, rfl⟩
  · obtain ⟨same, tail⟩ := List.append_inj' split rfl
    exact .inl ⟨(List.singleton_injective tail).symm, same.symm⟩
  · rw [List.concat_eq_append, ← List.cons_append, ← List.append_assoc] at split
    obtain ⟨same, tail⟩ := List.append_inj' split rfl
    obtain rfl := List.singleton_injective tail
    exact .inr ⟨inner, List.concat_eq_append, same⟩

/-- What a run has done so far and the state it reached, related step by step. -/
theorem history_induction (m : Machine σ ι ω) (start : σ)
    {P : List (Event σ ι ω) → σ → Prop} (empty : P [] start)
    (extend : ∀ past state input, P past state →
      P (past ++ [⟨state, input, m.answer state input⟩]) (m.next state input))
    (inputs : List ι) : P (m.history start inputs) (m.final start inputs) := by
  suffices general : ∀ past state, P past state →
      P (past ++ m.history state inputs) (m.final state inputs) by
    simpa only [List.nil_append] using general [] start empty
  induction inputs with
  | nil =>
    intro past state holds
    simpa only [history_nil, List.append_nil, final_nil] using holds
  | cons input rest ih =>
    intro past state holds
    have later := ih _ _ (extend past state input holds)
    simpa only [List.append_assoc, List.singleton_append, history_cons, final_cons] using later

/-- A predicate preserved by every step holds after every run. -/
theorem invariant (m : Machine σ ι ω) {P : σ → Prop}
    (preserved : ∀ state input, P state → P (m.next state input))
    {start : σ} (initial : P start) (inputs : List ι) : P (m.final start inputs) := by
  induction inputs generalizing start with
  | nil => exact initial
  | cons input rest ih => exact ih (preserved start input initial)

/-- The answers a run gives, oldest first. -/
def answers (m : Machine σ ι ω) (start : σ) (inputs : List ι) : List ω :=
  (m.history start inputs).map Event.output

@[simp] theorem answers_nil (m : Machine σ ι ω) (start : σ) : m.answers start [] = [] := rfl

@[simp] theorem answers_cons (m : Machine σ ι ω) (start : σ) (input : ι) (rest : List ι) :
    m.answers start (input :: rest) =
      m.answer start input :: m.answers (m.next start input) rest := rfl

/-- Every state a run reaches is safe exactly if every step of it is tame, when a step from a safe
state is safe exactly if it is tame. -/
theorem safe_iff (m : Machine σ ι ω) {Inv Safe : σ → Prop} {Tame : σ → ι → Prop}
    {Admissible : ι → Prop}
    (kept : ∀ state input, Inv state → Admissible input → Inv (m.next state input))
    (step : ∀ state input, Inv state → Safe state → Admissible input →
      (Safe (m.next state input) ↔ Tame state input))
    {start : σ} (initial : Inv start) (safe : Safe start) {inputs : List ι}
    (admissible : ∀ input ∈ inputs, Admissible input) :
    (∀ earlier later, inputs = earlier ++ later → Safe (m.final start earlier)) ↔
      ∀ event ∈ m.history start inputs, Tame event.before event.input := by
  induction inputs generalizing start with
  | nil =>
    refine ⟨fun _ event member => absurd member List.not_mem_nil, fun _ earlier later split => ?_⟩
    obtain ⟨rfl, -⟩ := List.append_eq_nil_iff.mp split.symm
    exact safe
  | cons input rest ih =>
    have now := admissible input List.mem_cons_self
    have others : ∀ input ∈ rest, Admissible input := fun other member =>
      admissible other (List.mem_cons_of_mem _ member)
    have moves := step start input initial safe now
    rw [history_cons, List.forall_mem_cons]
    constructor
    · intro reached
      have next := reached [input] rest rfl
      refine ⟨moves.mp next, (ih (kept _ _ initial now) next others).mp ?_⟩
      rintro earlier later rfl
      exact reached (input :: earlier) later rfl
    · rintro ⟨tame, later⟩ earlier remaining split
      have next := moves.mpr tame
      cases earlier with
      | nil => exact safe
      | cons first earlier =>
        obtain ⟨rfl, rfl⟩ := List.cons.inj split
        exact (ih (kept _ _ initial now) next others).mpr later earlier remaining rfl

/-- A preorder that holds along every stretch of quiet inputs is one that holds along every quiet
step. -/
theorem ordered_stretches_iff (m : Machine σ ι ω) {R : σ → σ → Prop} {Quiet : ι → Prop}
    (refl : ∀ state, R state state)
    (trans : ∀ {first second third}, R first second → R second third → R first third)
    {start : σ} {inputs : List ι} :
    (∀ earlier between later, inputs = earlier ++ (between ++ later) →
      (∀ input ∈ between, Quiet input) →
      R (m.final start earlier) (m.final start (earlier ++ between))) ↔
    ∀ event ∈ m.history start inputs, Quiet event.input →
      R event.before (m.next event.before event.input) := by
  constructor
  · intro stretches event member quiet
    obtain ⟨before, after, split⟩ := List.append_of_mem member
    obtain ⟨earlier, input, later, rfl, -, rfl, -⟩ := m.history_split split
    have step := stretches earlier [input] later rfl (by simpa using quiet)
    rwa [final_append] at step
  · rintro steps earlier between later rfl quiet
    rw [final_append]
    rw [history_append, history_append] at steps
    have inside : ∀ event ∈ m.history (m.final start earlier) between, Quiet event.input →
        R event.before (m.next event.before event.input) := fun event member =>
      steps event (List.mem_append_right _ (List.mem_append_left _ member))
    clear steps
    generalize m.final start earlier = state at inside ⊢
    induction between generalizing state with
    | nil => exact refl state
    | cons input rest ih =>
      have now := inside _ List.mem_cons_self (quiet input List.mem_cons_self)
      have later := ih (fun other member => quiet other (List.mem_cons_of_mem _ member)) _
        fun event member => inside event (List.mem_cons_of_mem _ member)
      exact trans now later

/-- Inputs the second machine cannot see leave the relation alone and emit nothing; the others
move both machines together. The emissions of the two runs are then the same list. -/
theorem stutter_simulation (m : Machine σ ι ω) (n : Machine τ κ ψ) (project : ι → Option κ)
    (emit : Event σ ι ω → List α) (emitted : Event τ κ ψ → List α) {R : σ → τ → Prop}
    {Admissible : ι → Prop}
    (idle : ∀ s t input, R s t → Admissible input → project input = none →
      R (m.next s input) t ∧ emit ⟨s, input, m.answer s input⟩ = [])
    (move : ∀ s t input visible, R s t → Admissible input → project input = some visible →
      R (m.next s input) (n.next t visible) ∧
        emit ⟨s, input, m.answer s input⟩ = emitted ⟨t, visible, n.answer t visible⟩)
    {s : σ} {t : τ} (related : R s t) {inputs : List ι}
    (admissible : ∀ input ∈ inputs, Admissible input) :
    R (m.final s inputs) (n.final t (inputs.filterMap project)) ∧
      (m.history s inputs).flatMap emit =
        (n.history t (inputs.filterMap project)).flatMap emitted := by
  induction inputs generalizing s t with
  | nil => exact ⟨related, rfl⟩
  | cons input rest ih =>
    have now := admissible input List.mem_cons_self
    have later : ∀ input ∈ rest, Admissible input := fun input member =>
      admissible input (List.mem_cons_of_mem _ member)
    cases seen : project input with
    | none =>
      obtain ⟨same, silent⟩ := idle s t input related now seen
      obtain ⟨reached, outputs⟩ := ih same later
      simp only [List.filterMap_cons, seen, final_cons, history_cons, List.flatMap_cons, silent,
        List.nil_append]
      exact ⟨reached, outputs⟩
    | some visible =>
      obtain ⟨same, equal⟩ := move s t input visible related now seen
      obtain ⟨reached, outputs⟩ := ih same later
      simp only [List.filterMap_cons, seen, final_cons, history_cons, List.flatMap_cons, equal]
      exact ⟨reached, congrArg _ outputs⟩

end Machine

end TradingConnectivity
