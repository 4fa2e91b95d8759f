import Mathlib.Data.List.DropRight
import TradingConnectivity.Machine.History

/-! # Streaks

Some inputs of a run have a time and some have none. The inputs with a time at the end of a run are
its streak, and a timer that is set by the first of them and cleared by every other input holds
the time at which the streak began (`timer_eq_streakStart`).
-/

namespace TradingConnectivity

namespace Machine

variable {σ ι ω τ : Type*}

/-- The inputs with a time behind the last input without one. -/
def streak (time? : ι → Option τ) (inputs : List ι) : List ι :=
  inputs.rtakeWhile fun input => (time? input).isSome

/-- The time at which the streak at the end of a run began. -/
def streakStart (time? : ι → Option τ) (inputs : List ι) : Option τ :=
  (streak time? inputs).head?.bind time?

/-- A timer after an input: set by its time unless it was set before, cleared when it has none. -/
def timerAfter (timer : Option τ) : Option τ → Option τ
  | none => none
  | some time => some (timer.getD time)

@[simp] theorem timerAfter_none (timer : Option τ) : timerAfter timer none = none := rfl

@[simp] theorem timerAfter_some (timer : Option τ) (time : τ) :
    timerAfter timer (some time) = some (timer.getD time) := rfl

@[simp] theorem streakStart_nil (time? : ι → Option τ) : streakStart time? [] = none := rfl

/-- The first input of a streak has a time. -/
theorem streakStart_eq_none_iff (time? : ι → Option τ) (inputs : List ι) :
    streakStart time? inputs = none ↔ streak time? inputs = [] := by
  rw [streakStart]
  cases found : streak time? inputs with
  | nil => simp only [List.head?_nil, Option.bind_none]
  | cons first rest =>
    have member : first ∈ streak time? inputs := by
      rw [found]
      exact List.mem_cons_self
    have timed : (time? first).isSome :=
      List.mem_rtakeWhile_imp (p := fun input => (time? input).isSome) member
    simp only [List.head?_cons, Option.bind_some, reduceCtorEq, iff_false]
    exact Option.isSome_iff_ne_none.mp timed

/-- One more input extends the streak, begins one, or ends it. -/
theorem streakStart_concat (time? : ι → Option τ) (inputs : List ι) (input : ι) :
    streakStart time? (inputs ++ [input]) =
      timerAfter (streakStart time? inputs) (time? input) := by
  cases timed : time? input with
  | none =>
    have ended : streak time? (inputs ++ [input]) = [] := by
      refine List.rtakeWhile_concat_neg _ _ _ ?_
      rw [timed]
      exact Bool.false_ne_true
    exact (streakStart_eq_none_iff time? _).mpr ended
  | some time =>
    have longer : streak time? (inputs ++ [input]) = streak time? inputs ++ [input] := by
      refine List.rtakeWhile_concat_pos _ _ _ ?_
      rw [timed]
      rfl
    cases found : streak time? inputs with
    | nil =>
      rw [(streakStart_eq_none_iff time? inputs).mpr found, streakStart, longer, found]
      exact timed
    | cons first rest =>
      have began : (streakStart time? inputs).isSome := by
        rw [Option.isSome_iff_ne_none, ne_eq, streakStart_eq_none_iff, found]
        exact List.cons_ne_nil first rest
      obtain ⟨start, holds⟩ := Option.isSome_iff_exists.mp began
      rw [holds, timerAfter_some, Option.getD_some, ← holds, streakStart, longer, streakStart,
        found]
      rfl

/-- While every input has a time, the start of the streak stays. -/
theorem streakStart_append {time? : ι → Option τ} {inputs more : List ι} {start : τ}
    (holds : streakStart time? inputs = some start) (timed : ∀ input ∈ more, (time? input).isSome) :
    streakStart time? (inputs ++ more) = some start := by
  induction more using List.reverseRecOn with
  | nil => rwa [List.append_nil]
  | append_singleton more last ih =>
    have before := ih fun input member => timed input (List.mem_append_left _ member)
    obtain ⟨time, found⟩ := Option.isSome_iff_exists.mp
      (timed last (List.mem_append_right _ List.mem_cons_self))
    rw [← List.append_assoc, streakStart_concat, before, found, timerAfter_some,
      Option.getD_some]

/-- A timer that every input sets or clears holds the start of the streak. -/
theorem timer_eq_streakStart (m : Machine σ ι ω) {timer : σ → Option τ} {time? : ι → Option τ}
    (step : ∀ state input, timer (m.next state input) = timerAfter (timer state) (time? input))
    {start : σ} (unset : timer start = none) (inputs : List ι) :
    timer (m.final start inputs) = streakStart time? inputs := by
  induction inputs using List.reverseRecOn with
  | nil => exact unset
  | append_singleton inputs last ih =>
    rw [final_append, streakStart_concat, ← ih]
    exact step (m.final start inputs) last

end Machine

end TradingConnectivity
