import TradingConnectivity.MarketData.CircuitBreaker

/-! # Lazy and eager cooldowns

`EagerBreaker` closes, and forgets its failures, at the instant its cooldown is over. The adapters'
breaker does so at the next `check`, so a failure recorded in between is swallowed.
`refines_eager_iff` shows that these late failures are all that sets the two apart: runs without
them give the results of the eager breaker, and additional checks change none of their results.
-/

namespace TradingConnectivity.MarketData

open Machine

/-- A breaker that is closed, with the failures it counted, or suspended until a time. -/
inductive EagerBreaker (τ : Type*)
  | closed (failures : ℕ)
  | suspended (limit : τ)
  deriving DecidableEq

namespace EagerBreaker

variable {τ : Type*} [LinearOrder τ] [Add τ]

/-- The breaker at a given time: closed once its cooldown is over. -/
def elapse (now : τ) : EagerBreaker τ → EagerBreaker τ
  | closed failures => closed failures
  | suspended limit => if now < limit then suspended limit else closed 0

def circuitState : EagerBreaker τ → CircuitState τ
  | closed _ => .closed
  | suspended limit => .opened limit

/-- One more failure of a breaker that is up to date. -/
def fail (maxAttempts : ℕ) (cooldown now : τ) : EagerBreaker τ → EagerBreaker τ × Bool
  | closed failures =>
      if maxAttempts ≤ failures + 1 then (suspended (now + cooldown), true)
      else (closed (failures + 1), false)
  | suspended limit => (suspended limit, false)

/-- The eager breaker under a sequence of calls. -/
def machine (maxAttempts : ℕ) (cooldown : τ) :
    Machine (EagerBreaker τ) (BreakerCall τ) (BreakerResult τ) where
  step breaker
    | .check now => (breaker.elapse now, .state (breaker.elapse now).circuitState)
    | .recordFailure now =>
        (((breaker.elapse now).fail maxAttempts cooldown now).1,
          .justOpened ((breaker.elapse now).fail maxAttempts cooldown now).2)
    | .recordSuccess => (closed 0, .done)

end EagerBreaker

/-- Calls whose times never decrease, and whose cooldowns end before the clock overflows. -/
structure Timely (cooldownNs : Int64) (calls : List (BreakerCall Int64)) : Prop where
  ordered : (calls.filterMap BreakerCall.nowNs?).Pairwise (· ≤ ·)
  fits : ∀ call ∈ calls, ∀ nowNs ∈ call.nowNs?, nowNs.toInt + cooldownNs.toInt < 2 ^ 63

namespace CircuitBreaker

/-- A failure is late when the circuit is open but its cooldown is over. -/
def LateFailure (breaker : CircuitBreaker) (call : BreakerCall Int64) : Prop :=
  ∃ nowNs limit, call = .recordFailure nowNs ∧ breaker.openUntil = some limit ∧ limit ≤ nowNs

/-- The breaker is as its limits and its calls made it. -/
structure Consistent (maxAttempts : UInt32) (cooldownNs : Int64) (breaker : CircuitBreaker) :
    Prop where
  attempts : breaker.maxAttempts = maxAttempts
  cooldown : breaker.cooldownNs = cooldownNs
  below : breaker.openUntil = none → breaker.failures.toNat < maxAttempts.toNat

/-- What the eager breaker would hold in its place. -/
def abstract (breaker : CircuitBreaker) : EagerBreaker ℤ :=
  match breaker.openUntil with
  | none => .closed breaker.failures.toNat
  | some limit => .suspended limit.toInt

private theorem abstract_of_closed {breaker : CircuitBreaker} (closed : breaker.openUntil = none) :
    breaker.abstract = .closed breaker.failures.toNat := by
  rw [abstract, closed]

private theorem abstract_of_open {breaker : CircuitBreaker} {limit : Int64}
    (holds : breaker.openUntil = some limit) : breaker.abstract = .suspended limit.toInt := by
  rw [abstract, holds]

section Step

variable {maxAttempts : UInt32} {cooldownNs : Int64} {breaker : CircuitBreaker}

private theorem consistent_withLimits (positive : 1 ≤ maxAttempts) (cooldownNs : Int64) :
    (withLimits maxAttempts cooldownNs).Consistent maxAttempts cooldownNs where
  attempts := rfl
  cooldown := rfl
  below _ := UInt32.le_iff_toNat_le.mp positive

theorem Consistent.recordSuccess (consistent : breaker.Consistent maxAttempts cooldownNs)
    (positive : 1 ≤ maxAttempts) : breaker.recordSuccess.Consistent maxAttempts cooldownNs where
  attempts := consistent.attempts
  cooldown := consistent.cooldown
  below _ := UInt32.le_iff_toNat_le.mp positive

/-- A check is the eager breaker's check. -/
theorem check_refines (consistent : breaker.Consistent maxAttempts cooldownNs)
    (positive : 1 ≤ maxAttempts) (nowNs : Int64) :
    (breaker.check nowNs).1.Consistent maxAttempts cooldownNs ∧
      (breaker.check nowNs).1.abstract = breaker.abstract.elapse nowNs.toInt ∧
      (breaker.check nowNs).2.map Int64.toInt =
        (breaker.abstract.elapse nowNs.toInt).circuitState := by
  cases holds : breaker.openUntil with
  | none =>
    rw [check_of_closed holds, abstract_of_closed holds]
    exact ⟨consistent, rfl, rfl⟩
  | some limit =>
    rw [abstract_of_open holds, EagerBreaker.elapse]
    by_cases early : nowNs < limit
    · rw [check_of_open holds early, if_pos (Int64.lt_iff_toInt_lt.mp early)]
      exact ⟨consistent, abstract_of_open holds, rfl⟩
    · have expired : limit ≤ nowNs := Int64.not_lt.mp early
      rw [check_of_expired holds expired,
        if_neg (not_lt.mpr (Int64.le_iff_toInt_le.mp expired))]
      exact ⟨consistent.recordSuccess positive, rfl, rfl⟩

/-- A failure that is not late is the eager breaker's failure. -/
theorem recordFailure_refines (consistent : breaker.Consistent maxAttempts cooldownNs)
    {nowNs : Int64} (nonneg : 0 ≤ cooldownNs.toInt)
    (fits : nowNs.toInt + cooldownNs.toInt < 2 ^ 63)
    (timely : ¬breaker.LateFailure (.recordFailure nowNs)) :
    (breaker.recordFailure nowNs).1.Consistent maxAttempts cooldownNs ∧
      ((breaker.recordFailure nowNs).1.abstract, (breaker.recordFailure nowNs).2) =
        (breaker.abstract.elapse nowNs.toInt).fail maxAttempts.toNat cooldownNs.toInt
          nowNs.toInt := by
  cases holds : breaker.openUntil with
  | some limit =>
    have early : nowNs < limit := by
      refine Int64.not_le.mp fun expired => timely ⟨nowNs, limit, rfl, holds, expired⟩
    rw [recordFailure_of_open holds, abstract_of_open holds, EagerBreaker.elapse,
      if_pos (Int64.lt_iff_toInt_lt.mp early)]
    exact ⟨consistent, rfl⟩
  | none =>
    have below := consistent.below holds
    have bound := maxAttempts.toNat_lt
    have lower := nowNs.le_toInt
    have counted : (breaker.failures + 1).toNat = breaker.failures.toNat + 1 := by
      rw [UInt32.toNat_add]
      exact Nat.mod_eq_of_lt (by change _ + 1 < 2 ^ 32; omega)
    have ends : (nowNs + breaker.cooldownNs).toInt = nowNs.toInt + cooldownNs.toInt := by
      rw [consistent.cooldown]
      exact Int64.toInt_add_of_bounds (by omega) fits
    have limit : breaker.maxAttempts ≤ breaker.failures + 1 ↔
        maxAttempts.toNat ≤ breaker.failures.toNat + 1 := by
      rw [consistent.attempts, UInt32.le_iff_toNat_le, counted]
    rw [abstract_of_closed holds, EagerBreaker.elapse, EagerBreaker.fail]
    by_cases reached : breaker.maxAttempts ≤ breaker.failures + 1
    · rw [recordFailure_of_limit holds reached, if_pos (limit.mp reached),
        abstract_of_open rfl, ends]
      refine ⟨⟨consistent.attempts, consistent.cooldown, ?_⟩, rfl⟩
      rintro ⟨⟩
    · have room := mt limit.mpr reached
      have closed : ({ breaker with failures := breaker.failures + 1 } : CircuitBreaker).abstract =
          .closed (breaker.failures.toNat + 1) := by
        rw [abstract, holds, counted]
      rw [recordFailure_of_below holds reached, if_neg room]
      refine ⟨⟨consistent.attempts, consistent.cooldown, fun _ => ?_⟩, ?_⟩
      · change (breaker.failures + 1).toNat < maxAttempts.toNat
        omega
      · exact congrArg (Prod.mk · false) closed

/-- A call that is no late failure does what the eager breaker does. -/
theorem step_refines (consistent : breaker.Consistent maxAttempts cooldownNs)
    (positive : 1 ≤ maxAttempts) (nonneg : 0 ≤ cooldownNs.toInt) {call : BreakerCall Int64}
    (fits : ∀ nowNs ∈ call.nowNs?, nowNs.toInt + cooldownNs.toInt < 2 ^ 63)
    (timely : ¬breaker.LateFailure call) :
    (machine.next breaker call).Consistent maxAttempts cooldownNs ∧
      (machine.next breaker call).abstract =
        (EagerBreaker.machine maxAttempts.toNat cooldownNs.toInt).next breaker.abstract
          (call.map Int64.toInt) ∧
      (machine.answer breaker call).map Int64.toInt =
        (EagerBreaker.machine maxAttempts.toNat cooldownNs.toInt).answer breaker.abstract
          (call.map Int64.toInt) := by
  cases call with
  | check nowNs =>
    obtain ⟨kept, same, answered⟩ := check_refines consistent positive nowNs
    exact ⟨kept, same, congrArg BreakerResult.state answered⟩
  | recordFailure nowNs =>
    obtain ⟨kept, same⟩ := recordFailure_refines consistent nonneg (fits nowNs rfl) timely
    obtain ⟨states, answers⟩ := Prod.mk.inj same
    exact ⟨kept, states, congrArg BreakerResult.justOpened answers⟩
  | recordSuccess => exact ⟨consistent.recordSuccess positive, rfl, rfl⟩

/-- A run without late failures gives the results of the eager breaker. -/
theorem answers_refine (consistent : breaker.Consistent maxAttempts cooldownNs)
    (positive : 1 ≤ maxAttempts) (nonneg : 0 ≤ cooldownNs.toInt)
    {calls : List (BreakerCall Int64)}
    (fits : ∀ call ∈ calls, ∀ nowNs ∈ call.nowNs?, nowNs.toInt + cooldownNs.toInt < 2 ^ 63)
    (timely : ∀ event ∈ machine.history breaker calls, ¬event.before.LateFailure event.input) :
    (machine.answers breaker calls).map (BreakerResult.map Int64.toInt) =
      (EagerBreaker.machine maxAttempts.toNat cooldownNs.toInt).answers breaker.abstract
        (calls.map (BreakerCall.map Int64.toInt)) := by
  induction calls generalizing breaker with
  | nil => rfl
  | cons call rest ih =>
    rw [history_cons, List.forall_mem_cons] at timely
    rw [List.forall_mem_cons] at fits
    obtain ⟨kept, state, answer⟩ := step_refines consistent positive nonneg fits.1 timely.1
    have later := ih kept fits.2 timely.2
    rw [answers_cons, List.map_cons, List.map_cons, answers_cons, answer, ← state]
    exact congrArg _ later

end Step

/-- The calls of a run with additional checks. -/
def withChecks (calls : List (BreakerCall Int64 ⊕ Int64)) : List (BreakerCall Int64) :=
  calls.map (Sum.elim id .check)

/-- The breaker with additional checks is the one without them, unless a check among them was the
first call after the end of the cooldown and reset it. -/
def Ahead (calls : List (BreakerCall Int64 ⊕ Int64)) (plain probed : CircuitBreaker) : Prop :=
  probed = plain ∨ probed = plain.recordSuccess ∧
    ∃ limit, plain.openUntil = some limit ∧
      ∀ nowNs ∈ (withChecks calls).filterMap BreakerCall.nowNs?, limit ≤ nowNs

theorem Ahead.check {nowNs : Int64} {rest : List (BreakerCall Int64 ⊕ Int64)}
    {plain probed : CircuitBreaker} (ahead : Ahead (.inr nowNs :: rest) plain probed)
    (first : ∀ later ∈ (withChecks rest).filterMap BreakerCall.nowNs?, nowNs ≤ later) :
    Ahead rest plain (probed.check nowNs).1 := by
  rcases ahead with rfl | ⟨rfl, limit, holds, expired⟩
  · cases holds : probed.openUntil with
    | none =>
      rw [check_of_closed holds]
      exact .inl rfl
    | some limit =>
      by_cases early : nowNs < limit
      · rw [check_of_open holds early]
        exact .inl rfl
      · have ended := Int64.not_lt.mp early
        rw [check_of_expired holds ended]
        exact .inr ⟨rfl, limit, holds, fun later member =>
          Int64.le_trans ended (first later member)⟩
  · rw [check_of_closed rfl]
    exact .inr ⟨rfl, limit, holds, fun later member =>
      expired later (List.mem_cons_of_mem _ member)⟩

/-- A call that is no late failure takes both breakers to the same state. -/
theorem Ahead.step {call : BreakerCall Int64} {rest : List (BreakerCall Int64 ⊕ Int64)}
    {plain probed : CircuitBreaker} (ahead : Ahead (.inl call :: rest) plain probed)
    (timely : ¬plain.LateFailure call) : machine.step probed call = machine.step plain call := by
  rcases ahead with rfl | ⟨rfl, limit, holds, expired⟩
  · rfl
  · cases call with
    | check nowNs =>
      have reset := check_of_expired holds (expired nowNs List.mem_cons_self)
      have idle : plain.recordSuccess.check nowNs = (plain.recordSuccess, .closed) :=
        check_of_closed rfl nowNs
      simp only [machine, reset, idle]
    | recordFailure nowNs =>
      exact absurd ⟨nowNs, limit, rfl, holds, expired nowNs List.mem_cons_self⟩ timely
    | recordSuccess => rfl

/-- Additional checks change no result of a run without late failures. -/
theorem answers_withChecks {calls : List (BreakerCall Int64 ⊕ Int64)} {breaker : CircuitBreaker}
    (ordered : ((withChecks calls).filterMap BreakerCall.nowNs?).Pairwise (· ≤ ·))
    (timely : ∀ event ∈ machine.history breaker (withoutProbes calls),
      ¬event.before.LateFailure event.input) :
    ((machine.withProbes BreakerCall.check).answers breaker calls).reduceOption =
      machine.answers breaker (withoutProbes calls) := by
  refine machine.answers_withProbes _ (R := fun calls plain probed =>
    ((withChecks calls).filterMap BreakerCall.nowNs?).Pairwise (· ≤ ·) ∧
      (∀ event ∈ machine.history plain (withoutProbes calls),
        ¬event.before.LateFailure event.input) ∧ Ahead calls plain probed)
    ?idle ?move ⟨ordered, timely, .inl rfl⟩
  case idle =>
    rintro nowNs rest plain probed ⟨ordered, timely, ahead⟩
    obtain ⟨first, ordered⟩ := List.pairwise_cons.mp ordered
    exact ⟨ordered, timely, ahead.check first⟩
  case move =>
    rintro call rest plain probed ⟨ordered, timely, ahead⟩
    rw [withoutProbes_inl, history_cons, List.forall_mem_cons] at timely
    have same := ahead.step timely.1
    refine ⟨congrArg Prod.snd same, ?_, timely.2, .inl (congrArg Prod.fst same)⟩
    exact ordered.sublist ((List.sublist_cons_self _ _).filterMap _)

end CircuitBreaker

open CircuitBreaker

/-- What a breaker with an eager cooldown would give: the results of the eager breaker, whatever
checks are added, and a new series of failures once the cooldown is over. -/
structure EagerlyEquivalent (maxAttempts : UInt32) (cooldownNs : Int64)
    (calls : List (BreakerCall Int64)) : Prop where
  results : (machine.answers (withLimits maxAttempts cooldownNs) calls).map
      (BreakerResult.map Int64.toInt) =
    (EagerBreaker.machine maxAttempts.toNat cooldownNs.toInt).answers (.closed 0)
      (calls.map (BreakerCall.map Int64.toInt))
  checks : ∀ probed, withoutProbes probed = calls →
    ((withChecks probed).filterMap BreakerCall.nowNs?).Pairwise (· ≤ ·) →
    ((machine.withProbes BreakerCall.check).answers (withLimits maxAttempts cooldownNs)
      probed).reduceOption = machine.answers (withLimits maxAttempts cooldownNs) calls
  renewed : ∀ event ∈ machine.history (withLimits maxAttempts cooldownNs) calls,
    ∀ nowNs limit, event.input = .recordFailure nowNs → event.before.openUntil = some limit →
      limit ≤ nowNs → event.before.recordFailure nowNs =
        (withLimits maxAttempts cooldownNs).recordFailure nowNs

/-- An open circuit swallows a failure; the first failure of a new series is counted, or opens the
circuit. -/
theorem recordFailure_ne_first {breaker : CircuitBreaker} {limit : Int64}
    (holds : breaker.openUntil = some limit) (maxAttempts : UInt32) (cooldownNs nowNs : Int64) :
    breaker.recordFailure nowNs ≠ (withLimits maxAttempts cooldownNs).recordFailure nowNs := by
  have closed : (withLimits maxAttempts cooldownNs).openUntil = none := rfl
  rw [recordFailure_of_open holds]
  by_cases reached : (withLimits maxAttempts cooldownNs).maxAttempts ≤
      (withLimits maxAttempts cooldownNs).failures + 1
  · rw [recordFailure_of_limit closed reached]
    intro same
    exact Bool.false_ne_true (Prod.mk.inj same).2
  · rw [recordFailure_of_below closed reached]
    intro same
    have unset := congrArg CircuitBreaker.openUntil (Prod.mk.inj same).1
    rw [holds] at unset
    cases unset

/-- The lazy cooldown is the eager one in exactly the runs without late failures. -/
theorem refines_eager_iff {maxAttempts : UInt32} {cooldownNs : Int64}
    (positive : 1 ≤ maxAttempts) (nonneg : 0 ≤ cooldownNs) {calls : List (BreakerCall Int64)}
    (timely : Timely cooldownNs calls) :
    EagerlyEquivalent maxAttempts cooldownNs calls ↔
      ∀ event ∈ machine.history (withLimits maxAttempts cooldownNs) calls,
        ¬event.before.LateFailure event.input := by
  constructor
  · rintro equivalent event member ⟨nowNs, limit, call, holds, expired⟩
    have first := equivalent.renewed event member nowNs limit call holds expired
    exact recordFailure_ne_first holds maxAttempts cooldownNs nowNs first
  · intro never
    refine ⟨?_, ?_, ?_⟩
    · have long : 0 ≤ cooldownNs.toInt := Int64.le_iff_toInt_le.mp nonneg
      exact answers_refine (consistent_withLimits positive cooldownNs) positive long timely.fits
        never
    · rintro probed rfl ordered
      exact answers_withChecks ordered never
    · intro event member nowNs limit call holds expired
      exact absurd ⟨nowNs, limit, call, holds, expired⟩ (never event member)

/-- A failure ten nanoseconds after the end of the cooldown is swallowed; the eager breaker opens
again. -/
theorem late_failure_swallowed :
    Timely 10 [.recordFailure 0, .recordFailure 20] ∧
      machine.answers (withLimits 1 10) [.recordFailure 0, .recordFailure 20] =
        [.justOpened true, .justOpened false] ∧
      (EagerBreaker.machine 1 (10 : ℤ)).answers (.closed 0)
        [.recordFailure 0, .recordFailure 20] = [.justOpened true, .justOpened true] ∧
      ¬EagerlyEquivalent 1 10 [.recordFailure 0, .recordFailure 20] := by
  refine ⟨⟨by decide, by simp [BreakerCall.nowNs?]⟩, by decide, by decide, fun equivalent => ?_⟩
  exact absurd equivalent.results (by decide)

/-- A second failure after a check has noticed the end of the cooldown. -/
theorem refines_eager_checked :
    EagerlyEquivalent 1 10 [.recordFailure 0, .check 20, .recordFailure 20] :=
  (refines_eager_iff (by decide) (by decide) ⟨by decide, by simp [BreakerCall.nowNs?]⟩).mpr (by
    rintro event member ⟨nowNs, limit, call, holds, expired⟩
    simp only [history_cons, history_nil, List.mem_cons, List.not_mem_nil, or_false] at member
    rcases member with rfl | rfl | rfl
    · cases holds
    · cases call
    · cases holds)

end TradingConnectivity.MarketData
