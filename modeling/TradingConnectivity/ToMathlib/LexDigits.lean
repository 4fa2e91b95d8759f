import Mathlib.Data.List.Lex
import Mathlib.Data.Nat.Digits.Lemmas
import Mathlib.Order.Monotone.Basic

/-! # Lexicographic order of numerals

Numerals of one length, highest digit first, are ordered as the numbers they denote, whatever
characters stand for the digits as long as these are in the same order (`map_lt_map_iff_ofDigits`).
-/

namespace List

variable {α : Type*} [LinearOrder α]

/-- Fields of one length are compared one after the other. -/
theorem append_lt_append_iff {first first' second second' : List α}
    (length : first.length = first'.length) :
    first ++ second < first' ++ second' ↔
      first < first' ∨ first = first' ∧ second < second' := by
  induction first generalizing first' with
  | nil =>
    obtain rfl := List.eq_nil_of_length_eq_zero length.symm
    simp only [nil_append, lt_irrefl, true_and, false_or]
  | cons a rest ih =>
    obtain ⟨a', rest', rfl⟩ := List.exists_cons_of_length_eq_add_one length.symm
    have tails : rest.length = rest'.length := Nat.succ.inj length
    simp only [cons_append, cons_lt_cons_iff, ih tails, cons.injEq]
    tauto

/-- Numerals of one length are ordered as their values. -/
theorem map_lt_map_iff_ofDigits {b : ℕ} (base : 1 < b) {digit : ℕ → α}
    (mono : StrictMonoOn digit (Set.Iio b)) {x y : List ℕ} (length : x.length = y.length)
    (left : ∀ d ∈ x, d < b) (right : ∀ d ∈ y, d < b) :
    x.map digit < y.map digit ↔ Nat.ofDigits b x.reverse < Nat.ofDigits b y.reverse := by
  induction x generalizing y with
  | nil =>
    obtain rfl := List.eq_nil_of_length_eq_zero length.symm
    simp only [map_nil, lt_irrefl]
  | cons m x ih =>
    obtain ⟨n, y, rfl⟩ := List.exists_cons_of_length_eq_add_one length.symm
    rw [List.forall_mem_cons] at left right
    have tails : x.length = y.length := Nat.succ.inj length
    have lower : Nat.ofDigits b x.reverse < b ^ y.length := by
      have bound := Nat.ofDigits_lt_base_pow_length base fun d member =>
        left.2 d (List.mem_reverse.mp member)
      rwa [length_reverse, tails] at bound
    have upper : Nat.ofDigits b y.reverse < b ^ y.length := by
      have bound := Nat.ofDigits_lt_base_pow_length base fun d member =>
        right.2 d (List.mem_reverse.mp member)
      rwa [length_reverse] at bound
    rw [map_cons, map_cons, cons_lt_cons_iff, mono.lt_iff_lt left.1 right.1,
      mono.injOn.eq_iff left.1 right.1, ih tails left.2 right.2]
    simp only [reverse_cons, Nat.ofDigits_append, length_reverse, Nat.ofDigits_singleton, tails]
    rcases lt_trichotomy m n with less | rfl | more
    · have carry : b ^ y.length * (m + 1) ≤ b ^ y.length * n := Nat.mul_le_mul_left _ less
      rw [Nat.mul_succ] at carry
      constructor
      · intro _
        omega
      · intro _
        exact .inl less
    · simp only [lt_irrefl, false_or, true_and]
      omega
    · have carry : b ^ y.length * (n + 1) ≤ b ^ y.length * m := Nat.mul_le_mul_left _ more
      rw [Nat.mul_succ] at carry
      constructor
      · rintro (less | ⟨same, -⟩) <;> omega
      · intro _
        omega

end List
