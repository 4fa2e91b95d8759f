import Mathlib.Data.List.Range

/-! # Numbers from a counter

A counter of 64 bits hands out consecutive numbers, and some of them are shown. How many it hands
out stays within a budget, so that what is shown is in order and without repetition as long as the
budget does not exceed the counter, and it shows all numbers exactly if nothing was lost. Tallies of
the parts of a run add up to that of the run.
-/

namespace TradingConnectivity

/-- From one value of the counter to another some of its numbers are shown, and all of them exactly
if nothing was lost. No more numbers are taken than the budget allows. -/
def Tally (start : UInt64) (budget : ℕ) (shown : List (Option UInt64)) (next : UInt64)
    (lossless : Prop) : Prop :=
  ∃ total ≤ budget, ∃ counts, counts.Sublist (List.range total) ∧
    shown = counts.map (fun n => some (start + .ofNat n)) ∧ next = start + .ofNat total ∧
    (counts = List.range total ↔ lossless)

namespace Tally

variable {start mid next : UInt64} {budget budget' : ℕ} {shown more : List (Option UInt64)}
  {lossless whole : Prop}

theorem nil (start : UInt64) : Tally start 0 [] start True :=
  ⟨0, le_rfl, [], .slnil, rfl, (UInt64.add_zero start).symm, iff_of_true rfl trivial⟩

/-- A number that is shown. -/
theorem shown_one (start : UInt64) : Tally start 1 [some start] (start + 1) True :=
  ⟨1, le_rfl, [0], .refl _, congrArg (fun n => [some n]) (UInt64.add_zero start).symm, rfl,
    iff_of_true rfl trivial⟩

/-- Numbers that are taken and not shown. -/
theorem lost (taken : next ≠ start) (few : (next - start).toNat ≤ budget) :
    Tally start budget [] next False := by
  refine ⟨(next - start).toNat, few, [], List.nil_sublist _, rfl, ?_, ?_⟩
  · rw [UInt64.ofNat_toNat, UInt64.add_comm, UInt64.sub_add_cancel]
  · rw [iff_false, eq_comm, List.range_eq_nil]
    intro zero
    apply taken
    have same : next - start = 0 := UInt64.toNat_inj.mp zero
    rw [← UInt64.sub_add_cancel next start, same, UInt64.zero_add]

theorem congr (tally : Tally start budget shown next lossless) (same : lossless ↔ whole) :
    Tally start budget shown next whole := by
  obtain ⟨total, few, counts, within, numbers, last, all⟩ := tally
  exact ⟨total, few, counts, within, numbers, last, all.trans same⟩

theorem mono (tally : Tally start budget shown next lossless) (more : budget ≤ budget') :
    Tally start budget' shown next lossless := by
  obtain ⟨total, few, tally⟩ := tally
  exact ⟨total, few.trans more, tally⟩

/-- What is shown later counts on. -/
theorem append (first : Tally start budget shown mid lossless)
    (second : Tally mid budget' more next whole) :
    Tally start (budget + budget') (shown ++ more) next (lossless ∧ whole) := by
  obtain ⟨total, few, counts, within, rfl, rfl, all⟩ := first
  obtain ⟨total', few', counts', within', rfl, rfl, all'⟩ := second
  have shifted (n : ℕ) : start + .ofNat total + .ofNat n = start + UInt64.ofNat (total + n) := by
    rw [UInt64.ofNat_add, UInt64.add_assoc]
  refine ⟨total + total', Nat.add_le_add few few', counts ++ counts'.map (total + ·), ?_, ?_,
    shifted total', ?_⟩
  · rw [List.range_add]
    exact within.append (within'.map _)
  · rw [List.map_append, List.map_map]
    simp only [shifted, Function.comp_def]
  · rw [← all, ← all', List.range_add]
    constructor
    · intro same
      have short := within.length_le
      have short' := within'.length_le
      have size := congrArg List.length same
      simp only [List.length_append, List.length_map, List.length_range] at short short' size
      exact ⟨within.eq_of_length (by rw [List.length_range]; omega),
        within'.eq_of_length (by rw [List.length_range]; omega)⟩
    · rintro ⟨rfl, rfl⟩
      rfl

end Tally

end TradingConnectivity
