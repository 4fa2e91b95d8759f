import Mathlib.Algebra.Order.Group.Nat
import Mathlib.Logic.Function.Iterate

/-! # Exclusive-or linear maps of machine words

Words of one width are a vector space over two elements, with the exclusive or as its addition.
Shifts are linear maps, and so are sums and iterates of linear maps. A shift by at least one place
added to the identity is injective, and two linear maps that agree on the powers of two are equal.
-/

namespace BitVec

variable {w : ℕ}

/-- Maps that respect the exclusive or. -/
def XorLinear (f : BitVec w → BitVec w) : Prop := ∀ x y, f (x ^^^ y) = f x ^^^ f y

namespace XorLinear

variable {f g : BitVec w → BitVec w}

theorem map_zero (linear : XorLinear f) : f 0#w = 0#w := by
  have twice := linear 0#w 0#w
  rwa [BitVec.xor_self, BitVec.xor_self] at twice

theorem comp (outer : XorLinear g) (inner : XorLinear f) : XorLinear (g ∘ f) := by
  intro x y
  simp only [Function.comp_apply, inner x y, outer (f x) (f y)]

protected theorem id : XorLinear (id : BitVec w → BitVec w) := fun _ _ => rfl

theorem iterate (linear : XorLinear f) (n : ℕ) : XorLinear f^[n] := by
  induction n with
  | zero => exact XorLinear.id
  | succ n ih => exact ih.comp linear

theorem add (first : XorLinear f) (second : XorLinear g) : XorLinear fun x => f x ^^^ g x := by
  intro x y
  change f (x ^^^ y) ^^^ g (x ^^^ y) = f x ^^^ g x ^^^ (f y ^^^ g y)
  rw [first x y, second x y]
  ac_rfl

theorem shiftLeft (k : ℕ) : XorLinear fun x : BitVec w => x <<< k :=
  fun x y => BitVec.shiftLeft_xor_distrib x y k

theorem ushiftRight (k : ℕ) : XorLinear fun x : BitVec w => x >>> k :=
  fun x y => BitVec.ushiftRight_xor_distrib x y k

/-- A linear map is injective when zero is the only word it maps to zero. -/
theorem injective (linear : XorLinear f) (kernel : ∀ x, f x = 0#w → x = 0#w) :
    Function.Injective f := by
  intro x y same
  have difference : f (x ^^^ y) = 0#w := by rw [linear x y, same, BitVec.xor_self]
  exact BitVec.xor_eq_zero_iff.mp (kernel _ difference)

end XorLinear

/-- Linear maps that agree on the powers of two agree on every word. -/
theorem XorLinear.eq_of_twoPow {f g : BitVec w → BitVec w} (left : XorLinear f)
    (right : XorLinear g) (agree : ∀ i < w, f (twoPow w i) = g (twoPow w i)) (x : BitVec w) :
    f x = g x := by
  suffices general : ∀ n ≤ w, ∀ x : BitVec w, (∀ i, n ≤ i → x.getLsbD i = false) → f x = g x from
    general w le_rfl x fun i outside => getLsbD_of_ge x i outside
  intro n
  induction n with
  | zero =>
    intro _ x bits
    obtain rfl : x = 0#w := eq_of_getLsbD_eq fun i _ => by rw [bits i i.zero_le, getLsbD_zero]
    rw [left.map_zero, right.map_zero]
  | succ n ih =>
    intro inside x bits
    cases top : x.getLsbD n with
    | false =>
      refine ih (by omega) x fun i above => ?_
      rcases above.eq_or_lt with rfl | above
      · exact top
      · exact bits i above
    | true =>
      have rest : f (x ^^^ twoPow w n) = g (x ^^^ twoPow w n) := by
        refine ih (by omega) _ fun i above => ?_
        rw [getLsbD_xor, getLsbD_twoPow]
        rcases above.eq_or_lt with rfl | above
        · simp only [top, show n < w by omega, decide_true, Bool.and_self, bne_self_eq_false]
        · simp only [bits i above, show n ≠ i by omega, decide_false, Bool.and_false,
            bne_self_eq_false]
      have split : x = (x ^^^ twoPow w n) ^^^ twoPow w n := by
        rw [BitVec.xor_assoc, BitVec.xor_self, BitVec.xor_zero]
      rw [split, left, right, rest, agree n (by omega)]

/-! ### Adding a shift -/

/-- A word that a left shift leaves alone is zero, from its lowest bit up. -/
theorem eq_zero_of_shiftLeft_eq {x : BitVec w} {k : ℕ} (positive : 0 < k) (same : x <<< k = x) :
    x = 0#w := by
  have bits : ∀ i, x.getLsbD i = false := by
    intro i
    induction i using Nat.strong_induction_on with
    | _ i ih =>
      rw [← same, getLsbD_shiftLeft]
      by_cases low : i < k
      · simp only [low, decide_true, Bool.not_true, Bool.and_false, Bool.false_and]
      · rw [ih (i - k) (by omega), Bool.and_false]
  exact eq_of_getLsbD_eq fun i _ => by rw [bits i, getLsbD_zero]

/-- A word that a right shift leaves alone is zero, from its highest bit down. -/
theorem eq_zero_of_ushiftRight_eq {x : BitVec w} {k : ℕ} (positive : 0 < k)
    (same : x >>> k = x) : x = 0#w := by
  have bits : ∀ n i, w ≤ i + n → x.getLsbD i = false := by
    intro n
    induction n with
    | zero => exact fun i outside => getLsbD_of_ge x i outside
    | succ n ih =>
      intro i outside
      rw [← same, getLsbD_ushiftRight]
      exact ih (k + i) (by omega)
  exact eq_of_getLsbD_eq fun i _ => by rw [bits w i (Nat.le_add_left w i), getLsbD_zero]

theorem xor_shiftLeft_injective {k : ℕ} (positive : 0 < k) :
    Function.Injective fun x : BitVec w => x ^^^ (x <<< k) :=
  (XorLinear.id.add (XorLinear.shiftLeft k)).injective fun _ vanishes =>
    eq_zero_of_shiftLeft_eq positive (BitVec.xor_eq_zero_iff.mp vanishes).symm

theorem xor_ushiftRight_injective {k : ℕ} (positive : 0 < k) :
    Function.Injective fun x : BitVec w => x ^^^ (x >>> k) :=
  (XorLinear.id.add (XorLinear.ushiftRight k)).injective fun _ vanishes =>
    eq_zero_of_ushiftRight_eq positive (BitVec.xor_eq_zero_iff.mp vanishes).symm

end BitVec
