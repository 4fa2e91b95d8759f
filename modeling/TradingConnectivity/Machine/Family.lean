import Mathlib.Logic.Function.Basic
import TradingConnectivity.Machine.Work

/-! # Machines side by side

The members of a family of machines take steps in any order and share nothing but the stream of
their effects. Each member runs as it would run alone on its own inputs, and an observer who sees
the effects of one member only sees those of that run.
-/

namespace TradingConnectivity

namespace Machine

variable {κ ε : Type*} {σ ι : κ → Type*} [DecidableEq κ]

/-- The machines of a family side by side; every input goes to one of them. -/
def family (m : ∀ k, Machine (σ k) (ι k) (List ε)) : Machine (∀ k, σ k) (Σ k, ι k) (List ε) where
  step states input :=
    (Function.update states input.1 ((m input.1).next (states input.1) input.2),
      (m input.1).answer (states input.1) input.2)

/-- The inputs that go to one member. -/
def inputsOf (k : κ) (inputs : List (Σ k, ι k)) : List (ι k) :=
  inputs.filterMap fun input => if same : input.1 = k then some (same ▸ input.2) else none

variable (m : ∀ k, Machine (σ k) (ι k) (List ε)) (states : ∀ k, σ k) {k : κ}

theorem inputsOf_own (input : ι k) (rest : List (Σ k, ι k)) :
    inputsOf k (⟨k, input⟩ :: rest) = input :: inputsOf k rest := by
  rw [inputsOf, List.filterMap_cons_some (dif_pos rfl)]
  rfl

theorem inputsOf_other {k' : κ} (other : k' ≠ k) (input : ι k') (rest : List (Σ k, ι k)) :
    inputsOf k (⟨k', input⟩ :: rest) = inputsOf k rest :=
  List.filterMap_cons_none (dif_neg other)

/-- Every member runs as it would alone. -/
theorem family_final (inputs : List (Σ k, ι k)) :
    (family m).final states inputs k = (m k).final (states k) (inputsOf k inputs) := by
  induction inputs generalizing states with
  | nil => rfl
  | cons input rest ih =>
    obtain ⟨k', input⟩ := input
    rw [final_cons, ih]
    by_cases same : k' = k
    · subst same
      rw [inputsOf_own, final_cons]
      exact congrArg ((m k').final · _) (Function.update_self ..)
    · rw [inputsOf_other same]
      exact congrArg ((m k).final · _) (Function.update_of_ne (Ne.symm same) ..)

/-- What is seen of one member alone is what it does alone. -/
theorem family_effects {seen : ε → Bool}
    (apart : ∀ k', k' ≠ k → ∀ state input, ∀ effect ∈ (m k').answer state input,
      seen effect = false) (inputs : List (Σ k, ι k)) :
    ((family m).effects states inputs).filter seen =
      ((m k).effects (states k) (inputsOf k inputs)).filter seen := by
  induction inputs generalizing states with
  | nil => rfl
  | cons input rest ih =>
    obtain ⟨k', input⟩ := input
    rw [effects_cons, List.filter_append, ih]
    change ((m k').answer (states k') input).filter seen ++ _ = _
    by_cases same : k' = k
    · subst same
      rw [inputsOf_own, effects_cons, List.filter_append]
      congr 3
      exact Function.update_self ..
    · have silent : ((m k').answer (states k') input).filter seen = [] :=
        List.filter_eq_nil_iff.mpr fun effect member => by
          simp [apart k' same (states k') input effect member]
      rw [silent, inputsOf_other same, List.nil_append]
      congr 2
      exact Function.update_of_ne (Ne.symm same) ..

end Machine

end TradingConnectivity
