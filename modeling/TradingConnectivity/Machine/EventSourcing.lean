import TradingConnectivity.Machine.History

/-! # Replaying a log of events

A machine is event-sourced when every step appends to a log and applying the appended events to a
view of the old state gives the view of the new one. Folding the whole log of a run over the view
of its first state then rebuilds the view of its last state. Steps may be required to be admissible
in the state they start from, as long as an invariant makes the run's own steps admissible.
-/

namespace TradingConnectivity

namespace Machine

variable {σ ι ω ε ρ : Type*}

/-- The events a run appends, oldest first. -/
def log (m : Machine σ ι ω) (append : σ → ι → List ε) (start : σ) (inputs : List ι) : List ε :=
  (m.history start inputs).flatMap fun event => append event.before event.input

theorem log_cons (m : Machine σ ι ω) (append : σ → ι → List ε) (start : σ) (input : ι)
    (rest : List ι) : m.log append start (input :: rest) =
      append start input ++ m.log append (m.next start input) rest := rfl

theorem log_append (m : Machine σ ι ω) (append : σ → ι → List ε) (start : σ)
    (first second : List ι) : m.log append start (first ++ second) =
      m.log append start first ++ m.log append (m.final start first) second := by
  rw [log, history_append, List.flatMap_append]
  rfl

/-- Applying what one step appended to the old view gives the new view. -/
def Sourced (m : Machine σ ι ω) (append : σ → ι → List ε) (view : σ → ρ) (apply : ρ → ε → ρ)
    (state : σ) (input : ι) : Prop :=
  view (m.next state input) = (append state input).foldl apply (view state)

section admissible

variable (m : Machine σ ι ω) {append : σ → ι → List ε} {Inv : σ → List ι → Prop}
  (kept : ∀ state input rest, Inv state (input :: rest) → Inv (m.next state input) rest)

include kept

/-- The invariant of a run's remaining inputs holds at its end. -/
theorem admissible_final {start : σ} {inputs : List ι} (initial : Inv start inputs) :
    Inv (m.final start inputs) [] := by
  induction inputs generalizing start with
  | nil => exact initial
  | cons input rest ih => exact ih (kept start input rest initial)

/-- What every admissible step appends, a run logs. -/
theorem forall_mem_log {P : ε → Prop}
    (each : ∀ state input rest, Inv state (input :: rest) → ∀ event ∈ append state input, P event)
    {start : σ} {inputs : List ι} (initial : Inv start inputs) :
    ∀ event ∈ m.log append start inputs, P event := by
  induction inputs generalizing start with
  | nil => exact fun event member => absurd member List.not_mem_nil
  | cons input rest ih =>
    intro event member
    rcases List.mem_append.mp member with now | later
    · exact each start input rest initial event now
    · exact ih (kept start input rest initial) event later

/-- If every admissible step is sourced, the log of a run rebuilds its last view. -/
theorem foldl_log {view : σ → ρ} {apply : ρ → ε → ρ}
    (sourced : ∀ state input rest, Inv state (input :: rest) →
      m.Sourced append view apply state input)
    {start : σ} {inputs : List ι} (initial : Inv start inputs) :
    (m.log append start inputs).foldl apply (view start) = view (m.final start inputs) := by
  induction inputs generalizing start with
  | nil => rfl
  | cons input rest ih =>
    rw [log_cons, List.foldl_append, ← sourced start input rest initial,
      ih (kept start input rest initial), final_cons]

end admissible

end Machine

end TradingConnectivity
