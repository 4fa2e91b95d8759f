import Mathlib.Data.List.Prime
import Mathlib.Tactic.NormNum.Prime
import TradingConnectivity.Replay.Replayer
import TradingConnectivity.ToMathlib.XorIterate

/-! # The fault-injection generator

Each of the three steps of a draw adds a shifted copy of the word to it, so a draw is a linear map
that loses nothing and only zero stays zero. Its characteristic polynomial is primitive: from any
seed the draws visit every state other than zero (`exists_draws_eq`), and no percentage other than
0 and 100 gets the same decision for ever (`never_degenerates`).
-/

namespace TradingConnectivity.Replay

namespace Prng

/-- One draw, as a map of words. -/
def xorshift (x : BitVec 64) : BitVec 64 :=
  let x := x ^^^ (x <<< 13)
  let x := x ^^^ (x >>> 7)
  x ^^^ (x <<< 17)

/-- The generator after one draw. -/
def advance (prng : Prng) : Prng := prng.next.2

private theorem state_advance (prng : Prng) :
    prng.advance.state.toBitVec = xorshift prng.state.toBitVec := rfl

private theorem xorshift_linear : BitVec.XorLinear xorshift :=
  (BitVec.XorLinear.id.add (.shiftLeft 17)).comp
    ((BitVec.XorLinear.id.add (.ushiftRight 7)).comp (BitVec.XorLinear.id.add (.shiftLeft 13)))

private theorem xorshift_injective : Function.Injective xorshift :=
  (BitVec.xor_shiftLeft_injective (show 0 < 17 by decide)).comp
    ((BitVec.xor_ushiftRight_injective (show 0 < 7 by decide)).comp
      (BitVec.xor_shiftLeft_injective (show 0 < 13 by decide)))

private theorem advance_injective : Function.Injective advance := by
  intro first second same
  have words : xorshift first.state.toBitVec = xorshift second.state.toBitVec := by
    rw [← state_advance, ← state_advance, same]
  cases first
  cases second
  exact congrArg Prng.mk (UInt64.toBitVec_inj.mp (xorshift_injective words))

private theorem state_iterate (prng : Prng) (n : ℕ) :
    (advance^[n] prng).state.toBitVec = xorshift^[n] prng.state.toBitVec := by
  induction n with
  | zero => rfl
  | succ n ih => rw [Function.iterate_succ_apply', Function.iterate_succ_apply', state_advance, ih]

/-- Zero is the only word that is drawn after zero. -/
private theorem iterate_state_ne_zero {prng : Prng} (nonzero : prng.state ≠ 0) (n : ℕ) :
    (advance^[n] prng).state ≠ 0 := by
  intro vanishes
  have word : xorshift^[n] prng.state.toBitVec = xorshift^[n] 0#64 := by
    rw [← state_iterate, vanishes, (xorshift_linear.iterate n).map_zero]
    rfl
  exact nonzero (UInt64.toBitVec_inj.mp (xorshift_injective.iterate n word))

private theorem new_state_ne_zero (seed : UInt64) : (new seed).state ≠ 0 := by
  change (if seed = 0 then 0xDEADBEEFCAFEF00D else seed) ≠ (0 : UInt64)
  split_ifs with zero
  · decide
  · exact zero

/-! ### The period -/

/-- The coefficients of the characteristic polynomial below its leading term. -/
def characteristic : BitVec 64 := 0x13ed4a358913201

/-- The prime factors of 2^64 - 1. Next to each stands the inverse, modulo the characteristic
polynomial, of `x` to the quotient minus one. -/
def certificates : List (ℕ × BitVec 64) :=
  [(3, 0xd742ca58f5d785e2), (5, 0xa3f64d1fb612f669), (17, 0x63f43995a1b49645),
    (257, 0x7d573a75b5260c4d), (641, 0x1ead61508d13286), (65537, 0xed7248a2317d33b1),
    (6700417, 0x483b08aa5d3741b5)]

private theorem certificates_prod :
    (certificates.map Prod.fst).prod = 2 ^ 64 - 1 := by decide +kernel

private theorem certificates_inverse : ∀ certificate ∈ certificates,
    BitVec.mulMod characteristic
      (BitVec.powMod characteristic 64 ((2 ^ 64 - 1) / certificate.1) ^^^ 1#64) certificate.2 =
        1#64 := by
  decide +kernel

private theorem certificates_prime : ∀ certificate ∈ certificates, certificate.1.Prime := by
  simp only [certificates, List.forall_mem_cons, List.not_mem_nil, false_implies, implies_true,
    and_true]
  norm_num

/-- Draws satisfy their characteristic polynomial. -/
private theorem xorshift_annihilates (s : BitVec 64) :
    xorshift^[64] s = BitVec.combine xorshift 64 characteristic s :=
  (xorshift_linear.iterate 64).eq_of_twoPow
    (BitVec.xorLinear_combine xorshift_linear 64 characteristic) (by decide +kernel) s

private theorem fullPeriod : BitVec.FullPeriod xorshift characteristic where
  linear := xorshift_linear
  annihilates := xorshift_annihilates
  returns := by decide +kernel
  inverse p prime divides := by
    rw [← certificates_prod] at divides
    obtain ⟨factor, listed, divides⟩ := (Nat.Prime.prime prime).dvd_prod_iff.mp divides
    obtain ⟨⟨_, q⟩, member, rfl⟩ := List.mem_map.mp listed
    have same := (Nat.prime_dvd_prime_iff_eq prime (certificates_prime _ member)).mp divides
    subst same
    exact ⟨q, certificates_inverse _ member⟩

/-- From a state other than zero the draws reach every such state. -/
theorem exists_draws_eq {prng : Prng} (nonzero : prng.state ≠ 0) {target : UInt64}
    (wanted : target ≠ 0) : ∃ n, (advance^[n] prng).state = target := by
  have start : prng.state.toBitVec ≠ 0#64 := fun zero => nonzero (UInt64.toBitVec_inj.mp zero)
  have goal : target.toBitVec ≠ 0#64 := fun zero => wanted (UInt64.toBitVec_inj.mp zero)
  obtain ⟨n, reached⟩ := fullPeriod.exists_iterate_eq (by decide) start goal
  refine ⟨n, UInt64.toBitVec_inj.mp ?_⟩
  rw [state_iterate, reached]

/-! ### Fault decisions -/

/-- The decisions for one percentage, draw after draw. -/
def decision (pct : UInt8) (prng : Prng) (n : ℕ) : Bool :=
  (((fun prng => (prng.percentChance pct).2)^[n] prng).percentChance pct).1

/-- A decision with a positive percentage is one draw. -/
private theorem percentChance_of_pos {pct : UInt8} (positive : 0 < pct) (prng : Prng) :
    prng.percentChance pct = (decide (prng.advance.state % 100 < pct.toUInt64), prng.advance) := by
  rw [percentChance, if_pos positive]
  rfl

private theorem decision_eq {pct : UInt8} (positive : 0 < pct) (prng : Prng) (n : ℕ) :
    prng.decision pct n = decide ((advance^[n + 1] prng).state % 100 < pct.toUInt64) := by
  have draws : (fun prng : Prng => (prng.percentChance pct).2) = advance := by
    funext prng
    rw [percentChance_of_pos positive]
  rw [decision, draws, percentChance_of_pos positive, Function.iterate_succ_apply']

/-- After any number of draws a state is drawn again. -/
private theorem exists_later_draw {prng : Prng} (nonzero : prng.state ≠ 0) {target : UInt64}
    (wanted : target ≠ 0) (n : ℕ) : ∃ later, n ≤ later ∧
      (advance^[later + 1] prng).state = target := by
  obtain ⟨more, reached⟩ := exists_draws_eq (iterate_state_ne_zero nonzero (n + 1)) wanted
  refine ⟨more + n, Nat.le_add_left n more, ?_⟩
  rwa [← Function.iterate_add_apply] at reached

/-- The generator never degenerates: its state is never zero, no two states have the same
successor, and every percentage between 0 and 100 says yes and says no again and again. -/
theorem never_degenerates (seed : UInt64) :
    (∀ n, (advance^[n] (new seed)).state ≠ 0) ∧
      Function.Injective (fun prng : Prng => prng.next.2) ∧
      ∀ pct : UInt8, 0 < pct → pct < 100 → ∀ n,
        (∃ later, n ≤ later ∧ (new seed).decision pct later = true) ∧
        ∃ later, n ≤ later ∧ (new seed).decision pct later = false := by
  have nonzero := new_state_ne_zero seed
  refine ⟨iterate_state_ne_zero nonzero, advance_injective, ?_⟩
  intro pct positive small n
  have lower : 0 < pct.toNat := UInt8.lt_iff_toNat_lt.mp positive
  have upper : pct.toNat < 100 := UInt8.lt_iff_toNat_lt.mp small
  constructor
  · obtain ⟨later, after, drawn⟩ :=
      exists_later_draw nonzero (show (100 : UInt64) ≠ 0 by decide) n
    refine ⟨later, after, ?_⟩
    rw [decision_eq positive, drawn, decide_eq_true_eq, UInt64.lt_iff_toNat_lt,
      UInt8.toNat_toUInt64]
    exact lower
  · obtain ⟨later, after, drawn⟩ :=
      exists_later_draw nonzero (show (99 : UInt64) ≠ 0 by decide) n
    refine ⟨later, after, ?_⟩
    rw [decision_eq positive, drawn, decide_eq_false_iff_not, UInt64.lt_iff_toNat_lt,
      UInt8.toNat_toUInt64]
    change ¬99 < pct.toNat
    omega

/-- The seed that would lock the generator. -/
theorem never_degenerates_zero :
    ∃ later, 1000 ≤ later ∧ (new 0).decision 50 later = false :=
  ((never_degenerates 0).2.2 50 (by decide) (by decide) 1000).2

end Prng

end TradingConnectivity.Replay
