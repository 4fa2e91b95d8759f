import TradingConnectivity.Machine.History

/-! # Latches

A latch is a property of the state that some steps set and others clear. After a run it holds
exactly if a step set it and no later step cleared it.
-/

namespace TradingConnectivity

namespace Machine

variable {σ ι ω : Type*}

/-- Some event sets the latch, and none after it clears it. -/
def Latched (sets clears : Event σ ι ω → Prop) (events : List (Event σ ι ω)) : Prop :=
  ∃ earlier event later, events = earlier ++ event :: later ∧ sets event ∧
    ∀ other ∈ later, ¬clears other

theorem not_latched_nil {sets clears : Event σ ι ω → Prop} : ¬Latched sets clears [] := by
  rintro ⟨earlier, event, later, split, -⟩
  exact absurd split (by simp)

/-- One more event sets the latch, or leaves it as it was. -/
theorem latched_concat {sets clears : Event σ ι ω → Prop} {events : List (Event σ ι ω)}
    {last : Event σ ι ω} : Latched sets clears (events ++ [last]) ↔
      sets last ∨ Latched sets clears events ∧ ¬clears last := by
  constructor
  · rintro ⟨earlier, event, later, split, set, kept⟩
    rcases concat_split split with ⟨rfl, -⟩ | ⟨inner, rfl, rfl⟩
    · exact .inl set
    · refine .inr ⟨⟨earlier, event, inner, rfl, set, fun other inside => ?_⟩, ?_⟩
      · exact kept other (List.mem_append_left _ inside)
      · exact kept last (List.mem_append_right _ List.mem_cons_self)
  · rintro (set | ⟨⟨earlier, event, later, rfl, set, kept⟩, stays⟩)
    · exact ⟨events, last, [], rfl, set, fun other inside => absurd inside List.not_mem_nil⟩
    · refine ⟨earlier, event, later ++ [last], by simp, set, ?_⟩
      intro other inside
      rcases List.mem_append.mp inside with before | final
      · exact kept other before
      · rwa [List.mem_singleton.mp final]

/-- A property that every step sets, clears or leaves alone is a latch of the run. -/
theorem holds_iff_latched (m : Machine σ ι ω) (Holds : σ → Prop) {sets clears : Event σ ι ω → Prop}
    (step : ∀ state input, Holds (m.next state input) ↔
      sets ⟨state, input, m.answer state input⟩ ∨
        Holds state ∧ ¬clears ⟨state, input, m.answer state input⟩)
    {start : σ} (unset : ¬Holds start) (inputs : List ι) :
    Holds (m.final start inputs) ↔ Latched sets clears (m.history start inputs) := by
  refine m.history_induction start (P := fun past state => Holds state ↔ Latched sets clears past)
    (iff_of_false unset not_latched_nil) ?_ inputs
  intro past state input holds
  rw [latched_concat, step, holds]

end Machine

end TradingConnectivity
