import Mathlib.Data.List.ReduceOption
import TradingConnectivity.Machine.History

/-! # Runs with additional inputs

A probe is an input that an observer adds to a run. `answers_withProbes` is the rule for showing
that the probes of a run change none of the answers to its own inputs: a relation between the run
without and the run with probes that every input and every probe keeps.
-/

namespace TradingConnectivity

namespace Machine

variable {σ ι κ ω : Type*}

/-- The machine that also takes probes, whose answers nobody sees. -/
def withProbes (m : Machine σ ι ω) (probe : κ → ι) : Machine σ (ι ⊕ κ) (Option ω) where
  step state
    | .inl input => (m.next state input, some (m.answer state input))
    | .inr added => (m.next state (probe added), none)

/-- The inputs of a run that are not probes. -/
def withoutProbes (inputs : List (ι ⊕ κ)) : List ι := inputs.filterMap Sum.getLeft?

@[simp] theorem withoutProbes_inl (input : ι) (rest : List (ι ⊕ κ)) :
    withoutProbes (.inl input :: rest) = input :: withoutProbes rest := rfl

@[simp] theorem withoutProbes_inr (added : κ) (rest : List (ι ⊕ κ)) :
    withoutProbes (.inr added :: rest) = withoutProbes rest := rfl

/-- A relation that every probe keeps, and every input with the same answer on both sides, makes
the probes of a run invisible. It may speak about the inputs that are still to come. -/
theorem answers_withProbes (m : Machine σ ι ω) (probe : κ → ι)
    {R : List (ι ⊕ κ) → σ → σ → Prop}
    (idle : ∀ added rest plain probed, R (.inr added :: rest) plain probed →
      R rest plain (m.next probed (probe added)))
    (move : ∀ input rest plain probed, R (.inl input :: rest) plain probed →
      m.answer probed input = m.answer plain input ∧
        R rest (m.next plain input) (m.next probed input))
    {inputs : List (ι ⊕ κ)} {plain probed : σ} (related : R inputs plain probed) :
    ((m.withProbes probe).answers probed inputs).reduceOption =
      m.answers plain (withoutProbes inputs) := by
  induction inputs generalizing plain probed with
  | nil => rfl
  | cons head rest ih =>
    cases head with
    | inl input =>
      obtain ⟨same, later⟩ := move input rest plain probed related
      have tail := ih later
      have answer : (m.withProbes probe).answer probed (.inl input) =
          some (m.answer probed input) := rfl
      rw [withoutProbes_inl, answers_cons, answers_cons, answer, List.reduceOption_cons_of_some,
        same]
      exact congrArg _ tail
    | inr added =>
      have tail := ih (idle added rest plain probed related)
      have answer : (m.withProbes probe).answer probed (.inr added) = none := rfl
      rw [withoutProbes_inr, answers_cons, answer, List.reduceOption_cons_of_none]
      exact tail

end Machine

end TradingConnectivity
