import Mathlib.Data.Set.Basic

/-! # Computations that may fail

A computation made of two succeeds when both of them do.
-/

namespace Except

variable {ε α β : Type*}

theorem bind_eq_ok_iff {x : Except ε α} {next : α → Except ε β} {b : β} :
    x.bind next = .ok b ↔ ∃ a, x = .ok a ∧ next a = .ok b := by
  cases x with
  | error e => exact ⟨nofun, by rintro ⟨_, ⟨⟩, _⟩⟩
  | ok a => exact ⟨fun success => ⟨a, rfl, success⟩, by rintro ⟨_, ⟨⟩, success⟩; exact success⟩

end Except
