import Mathlib.Data.FinEnum
import Mathlib.Dynamics.PeriodicPts.Lemmas
import TradingConnectivity.ToMathlib.XorLinear

/-! # Iterates of linear maps

A linear map of words of width `w` that satisfies a polynomial equation of degree `w` is iterated
by powers of `x` modulo that polynomial, whose coefficients are again a word (`combine_powMod`).
So a single computation decides whether all words return after `2 ^ w - 1` steps, and an inverse
modulo the polynomial for each prime factor of that number shows that none but zero returns
earlier: every orbit then visits every word other than zero (`exists_iterate_eq`).
-/

namespace BitVec

variable {w : ℕ}

/-- The sum of the first `n` iterates of `f` at `s` that the bits of `r` select. -/
def combine (f : BitVec w → BitVec w) : ℕ → BitVec w → BitVec w → BitVec w
  | 0, _, _ => 0#w
  | n + 1, r, s => (if r.getLsbD 0 then s else 0#w) ^^^ combine f n (r >>> 1) (f s)

/-- The product by `x` modulo the polynomial with leading term `x ^ w` and the other coefficients
`c`. -/
def shiftMod (c r : BitVec w) : BitVec w := if r.msb then (r <<< 1) ^^^ c else r <<< 1

/-- The product modulo the same polynomial. -/
def mulMod (c a b : BitVec w) : BitVec w := combine (shiftMod c) w b a

/-- The power `x ^ n` modulo the same polynomial, for `n` below `2 ^ fuel`. -/
def powMod (c : BitVec w) : ℕ → ℕ → BitVec w
  | 0, _ => 1#w
  | fuel + 1, n =>
      let half := powMod c fuel (n / 2)
      if n % 2 = 0 then mulMod c half half else shiftMod c (mulMod c half half)

section Combine

variable {f : BitVec w → BitVec w}

/-- Selecting by a sum of bits is the sum of the selections. -/
theorem ite_xor (a b : Bool) (s : BitVec w) :
    (if a ^^ b then s else 0#w) = (if a then s else 0#w) ^^^ (if b then s else 0#w) := by
  cases a <;> cases b <;> simp

theorem combine_xor (n : ℕ) (r t s : BitVec w) :
    combine f n (r ^^^ t) s = combine f n r s ^^^ combine f n t s := by
  induction n generalizing r t s with
  | zero => exact (BitVec.xor_self).symm
  | succ n ih =>
    simp only [combine, BitVec.ushiftRight_xor_distrib, ih, getLsbD_xor, ite_xor]
    ac_rfl

theorem combine_zero (n : ℕ) (s : BitVec w) : combine f n 0#w s = 0#w := by
  induction n generalizing s with
  | zero => rfl
  | succ n ih => simp only [combine, getLsbD_zero, BitVec.zero_ushiftRight, ih]; simp

/-- Only the first bits select. -/
theorem combine_congr {n : ℕ} {r t : BitVec w} (same : ∀ i < n, r.getLsbD i = t.getLsbD i)
    (s : BitVec w) : combine f n r s = combine f n t s := by
  induction n generalizing r t s with
  | zero => rfl
  | succ n ih =>
    have later : ∀ i < n, (r >>> 1).getLsbD i = (t >>> 1).getLsbD i := by
      intro i inside
      rw [getLsbD_ushiftRight, getLsbD_ushiftRight]
      exact same (1 + i) (by omega)
    rw [combine, combine, same 0 n.succ_pos, ih later]

/-- The last iterate apart. -/
theorem combine_succ (n : ℕ) (r s : BitVec w) :
    combine f (n + 1) r s = combine f n r s ^^^ if r.getLsbD n then f^[n] s else 0#w := by
  induction n generalizing r s with
  | zero => simp only [combine, Function.iterate_zero, id_eq]; exact BitVec.xor_comm _ _
  | succ n ih =>
    rw [combine, ih, combine, getLsbD_ushiftRight, Nat.add_comm 1 n, Function.iterate_succ_apply]
    ac_rfl

theorem xorLinear_combine (linear : XorLinear f) (n : ℕ) (r : BitVec w) :
    XorLinear (combine f n r) := by
  induction n generalizing r with
  | zero => exact fun _ _ => (BitVec.xor_self).symm
  | succ n ih =>
    intro s t
    rw [combine, combine, combine, linear, ih]
    cases r.getLsbD 0
    · simp only [Bool.false_eq_true, if_false, BitVec.zero_xor]
    · simp only [if_true]
      ac_rfl

theorem map_combine (linear : XorLinear f) (n : ℕ) (r s : BitVec w) :
    f (combine f n r s) = combine f n r (f s) := by
  induction n generalizing r s with
  | zero => exact linear.map_zero
  | succ n ih =>
    rw [combine, combine, linear, ih]
    cases r.getLsbD 0
    · simp only [Bool.false_eq_true, if_false, linear.map_zero]
    · rfl

theorem combine_one (positive : 0 < w) (s : BitVec w) : combine f w 1#w s = s := by
  obtain ⟨n, rfl⟩ : ∃ n, w = n + 1 := ⟨w - 1, by omega⟩
  have rest : 1#(n + 1) >>> 1 = 0#(n + 1) := by
    refine eq_of_getLsbD_eq fun i _ => ?_
    rw [getLsbD_ushiftRight, getLsbD_zero, getLsbD_one]
    simp
  have first : (1#(n + 1)).getLsbD 0 = true := by simp
  rw [combine, rest, combine_zero, if_pos first, BitVec.xor_zero]

variable {c : BitVec w}

/-- A product by `x` modulo the polynomial is one more step, when the map satisfies it. -/
theorem combine_shiftMod (positive : 0 < w) (linear : XorLinear f)
    (annihilates : ∀ s, f^[w] s = combine f w c s) (r s : BitVec w) :
    combine f w (shiftMod c r) s = f (combine f w r s) := by
  obtain ⟨n, rfl⟩ : ∃ n, w = n + 1 := ⟨w - 1, by omega⟩
  have shifted : combine f (n + 1) (r <<< 1) s = combine f n r (f s) := by
    have low : (r <<< 1).getLsbD 0 = false := by simp
    rw [combine, low, if_neg Bool.false_ne_true, BitVec.zero_xor]
    refine combine_congr (fun i inside => ?_) (f s)
    rw [getLsbD_ushiftRight, getLsbD_shiftLeft]
    simp [show 1 + i < n + 1 by omega]
  have top : r.msb = r.getLsbD n := by rw [msb_eq_getLsbD_last, Nat.add_sub_cancel]
  rw [map_combine linear, shiftMod, top, combine_succ n r (f s), ← Function.iterate_succ_apply]
  cases r.getLsbD n with
  | false => simp only [Bool.false_eq_true, if_false, BitVec.xor_zero, shifted]
  | true => simp only [if_true, combine_xor, shifted, annihilates]

/-- Products modulo the polynomial are compositions. -/
theorem combine_mulMod (positive : 0 < w) (linear : XorLinear f)
    (annihilates : ∀ s, f^[w] s = combine f w c s) (a b s : BitVec w) :
    combine f w (mulMod c a b) s = combine f w b (combine f w a s) := by
  suffices general : ∀ n a b,
      combine f w (combine (shiftMod c) n b a) s = combine f n b (combine f w a s) from
    general w a b
  intro n
  induction n with
  | zero => exact fun _ _ => combine_zero w s
  | succ n ih =>
    intro a b
    rw [combine, combine_xor, ih, combine_shiftMod positive linear annihilates, combine]
    cases b.getLsbD 0
    · simp only [Bool.false_eq_true, if_false, combine_zero]
    · simp only [if_true]

/-- The powers of `x` modulo the polynomial are the iterates. -/
theorem combine_powMod (positive : 0 < w) (linear : XorLinear f)
    (annihilates : ∀ s, f^[w] s = combine f w c s) {fuel n : ℕ} (enough : n < 2 ^ fuel)
    (s : BitVec w) : combine f w (powMod c fuel n) s = f^[n] s := by
  induction fuel generalizing n s with
  | zero =>
    obtain rfl : n = 0 := by omega
    exact combine_one positive s
  | succ fuel ih =>
    have half : n / 2 < 2 ^ fuel := by omega
    have square : combine f w (mulMod c (powMod c fuel (n / 2)) (powMod c fuel (n / 2))) s =
        f^[n / 2 + n / 2] s := by
      rw [combine_mulMod positive linear annihilates, ih half, ih half, Function.iterate_add_apply]
    rw [powMod]
    by_cases even : n % 2 = 0
    · rw [if_pos even, square, show n / 2 + n / 2 = n by omega]
    · rw [if_neg even, combine_shiftMod positive linear annihilates, square,
        ← Function.iterate_succ_apply' f, show (n / 2 + n / 2).succ = n by omega]

/-- A word that returned would be zero, by the inverse of what the return says is zero. -/
theorem iterate_ne_self (positive : 0 < w) (linear : XorLinear f)
    (annihilates : ∀ s, f^[w] s = combine f w c s) {n : ℕ} (bound : n < 2 ^ w) {q : BitVec w}
    (inverse : mulMod c (powMod c w n ^^^ 1#w) q = 1#w) {s : BitVec w} (start : s ≠ 0#w) :
    f^[n] s ≠ s := by
  intro returned
  apply start
  calc s = combine f w (mulMod c (powMod c w n ^^^ 1#w) q) s := by
        rw [inverse, combine_one positive]
    _ = combine f w q (f^[n] s ^^^ s) := by
        rw [combine_mulMod positive linear annihilates, combine_xor,
          combine_powMod positive linear annihilates bound, combine_one positive]
    _ = 0#w := by
        rw [returned, BitVec.xor_self, (xorLinear_combine linear w q).map_zero]

/-- A certificate that the orbits of a map are as long as they can be: all words return after
`2 ^ w - 1` steps, and for each prime factor of that number the quotient has an inverse modulo the
polynomial that excludes it. -/
structure FullPeriod (f : BitVec w → BitVec w) (c : BitVec w) : Prop where
  linear : XorLinear f
  annihilates : ∀ s, f^[w] s = combine f w c s
  returns : powMod c w (2 ^ w - 1) = 1#w
  inverse : ∀ p, p.Prime → p ∣ 2 ^ w - 1 →
    ∃ q, mulMod c (powMod c w ((2 ^ w - 1) / p) ^^^ 1#w) q = 1#w

open Function in
theorem FullPeriod.minimalPeriod_eq (full : FullPeriod f c) (positive : 0 < w) {s : BitVec w}
    (start : s ≠ 0#w) : minimalPeriod f s = 2 ^ w - 1 := by
  have several : 1 < 2 ^ w := Nat.one_lt_two_pow positive.ne'
  have periodic : IsPeriodicPt f (2 ^ w - 1) s := by
    have iterated := combine_powMod positive full.linear full.annihilates
      (show 2 ^ w - 1 < 2 ^ w by omega) s
    rw [full.returns, combine_one positive] at iterated
    exact iterated.symm
  obtain ⟨k, factors⟩ := periodic.minimalPeriod_dvd
  by_contra short
  have proper : k ≠ 1 := by
    rintro rfl
    exact short (by rw [factors, mul_one])
  obtain ⟨p, prime, divides⟩ := Nat.exists_prime_and_dvd proper
  obtain ⟨j, rfl⟩ := divides
  rw [Nat.mul_left_comm] at factors
  have quotient : (2 ^ w - 1) / p = minimalPeriod f s * j := by
    rw [factors, Nat.mul_div_cancel_left _ prime.pos]
  have divisor : p ∣ 2 ^ w - 1 := Dvd.intro _ factors.symm
  obtain ⟨q, inverse⟩ := full.inverse p prime divisor
  refine iterate_ne_self positive full.linear full.annihilates ?_ inverse start ?_
  · exact (Nat.div_le_self _ _).trans_lt (by omega)
  · rw [quotient]
    exact (isPeriodicPt_minimalPeriod f s).mul_const j

/-- The orbit of a word other than zero visits every such word. -/
theorem FullPeriod.exists_iterate_eq (full : FullPeriod f c) (positive : 0 < w) {s t : BitVec w}
    (start : s ≠ 0#w) (target : t ≠ 0#w) : ∃ n, f^[n] s = t := by
  have period := full.minimalPeriod_eq positive start
  let orbit := (Finset.range (2 ^ w - 1)).image fun n => f^[n] s
  have size : orbit.card = 2 ^ w - 1 := by
    rw [Finset.card_image_of_injOn, Finset.card_range]
    have injective := Function.iterate_injOn_Iio_minimalPeriod (f := f) (x := s)
    rw [period] at injective
    simpa only [Finset.coe_range] using injective
  have inside : orbit ⊆ Finset.univ.erase 0#w := by
    intro word member
    obtain ⟨n, below, rfl⟩ := Finset.mem_image.mp member
    refine Finset.mem_erase.mpr ⟨fun vanishes => start ?_, Finset.mem_univ _⟩
    have returned := Function.iterate_minimalPeriod (f := f) (x := s)
    have later : 2 ^ w - 1 = (2 ^ w - 1 - n) + n := by
      have := Finset.mem_range.mp below
      omega
    rw [period, later, Function.iterate_add_apply, vanishes,
      (full.linear.iterate _).map_zero] at returned
    exact returned.symm
  have whole : orbit = Finset.univ.erase 0#w := by
    refine Finset.eq_of_subset_of_card_le inside ?_
    rw [size, Finset.card_erase_of_mem (Finset.mem_univ _), Finset.card_univ,
      ← FinEnum.card_eq_fintypeCard, FinEnum.card_bitVec]
  have member : t ∈ orbit := by
    rw [whole]
    exact Finset.mem_erase.mpr ⟨target, Finset.mem_univ t⟩
  obtain ⟨n, -, reached⟩ := Finset.mem_image.mp member
  exact ⟨n, reached⟩

end Combine

end BitVec
