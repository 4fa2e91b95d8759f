import TradingConnectivity.Machine.Streak
import TradingConnectivity.ToMathlib.FixedWidth

/-! # Top-of-book validation

The validator compares the best prices of the book with those of the best-bid-offer stream and
times how long they disagree. `escalates_by_duration` states its answers through the streak of
mismatching checks: a match, an empty side and a clear end it.
-/

namespace TradingConnectivity.MarketData

open Machine

/-- Action returned by a check, with the time the mismatch has lasted. -/
inductive BboCheckResult (τ : Type*)
  | ok
  | degrade (mismatchNs : τ)
  | markStale (mismatchNs : τ)
  deriving DecidableEq

def BboCheckResult.map {τ υ : Type*} (f : τ → υ) : BboCheckResult τ → BboCheckResult υ
  | ok => ok
  | degrade mismatchNs => degrade (f mismatchNs)
  | markStale mismatchNs => markStale (f mismatchNs)

/-- `mismatchSince` is the time of the first check that disagreed with the book. -/
structure BboValidator where
  mismatchSince : Option Int64
  degradeNs : Int64
  staleNs : Int64
  deriving DecidableEq

/-- One comparison: the book's best prices, `none` for an empty side, and those of the stream. -/
structure BboCheck where
  nowNs : Int64
  bookBidPrice : Option Int64
  bookAskPrice : Option Int64
  bboBidPrice : Int64
  bboAskPrice : Int64
  deriving DecidableEq

/-- The calls of a run. -/
inductive BboCall
  | check (prices : BboCheck)
  | clear
  deriving DecidableEq

/-- The top of book matches, or a side of the book is empty. -/
def BboCheck.Agrees (prices : BboCheck) : Prop :=
  prices.bookBidPrice = none ∨ prices.bookAskPrice = none ∨
    (prices.bookBidPrice = some prices.bboBidPrice ∧ prices.bookAskPrice = some prices.bboAskPrice)

instance (prices : BboCheck) : Decidable prices.Agrees :=
  inferInstanceAs (Decidable (_ ∨ _ ∨ (_ ∧ _)))

/-- The time of a mismatching check; every other call has none. -/
def BboCall.mismatch? : BboCall → Option Int64
  | .check prices => if prices.Agrees then none else some prices.nowNs
  | .clear => none

namespace BboValidator

def withThresholds (degradeNs staleNs : Int64) : BboValidator where
  mismatchSince := none
  degradeNs := degradeNs
  staleNs := staleNs

/-- Starts or continues the timer on a mismatch and cancels it otherwise. -/
def check (validator : BboValidator) (prices : BboCheck) :
    BboValidator × BboCheckResult Int64 :=
  match prices.bookBidPrice, prices.bookAskPrice with
  | some bb, some ba =>
      if bb = prices.bboBidPrice ∧ ba = prices.bboAskPrice then
        ({ validator with mismatchSince := none }, .ok)
      else
        let since := validator.mismatchSince.getD prices.nowNs
        let durationNs := prices.nowNs.saturatingSub since
        ({ validator with mismatchSince := some since },
          if validator.staleNs ≤ durationNs then .markStale durationNs
          else if validator.degradeNs ≤ durationNs then .degrade durationNs
          else .ok)
  -- an empty book has nothing to compare
  | _, _ => ({ validator with mismatchSince := none }, .ok)

def clear (validator : BboValidator) : BboValidator :=
  { validator with mismatchSince := none }

/-- The validator under a sequence of calls; a clear returns nothing. -/
def machine : Machine BboValidator BboCall (Option (BboCheckResult Int64)) where
  step validator
    | .check prices => ((validator.check prices).1, some (validator.check prices).2)
    | .clear => (validator.clear, none)

private theorem check_of_agrees {prices : BboCheck} (agrees : prices.Agrees)
    (validator : BboValidator) :
    validator.check prices = ({ validator with mismatchSince := none }, .ok) := by
  rcases agrees with bid | ask | ⟨bid, ask⟩
  · simp only [check, bid]
  · cases bid : prices.bookBidPrice <;> simp only [check, bid, ask]
  · simp only [check, bid, ask, and_self, if_true]

/-- What a mismatch returns when the timer was started at `since`. -/
def escalate (validator : BboValidator) (nowNs since : Int64) : BboCheckResult Int64 :=
  if validator.staleNs ≤ nowNs.saturatingSub since then .markStale (nowNs.saturatingSub since)
  else if validator.degradeNs ≤ nowNs.saturatingSub since then
    .degrade (nowNs.saturatingSub since)
  else .ok

private theorem check_of_mismatch {prices : BboCheck} (mismatch : ¬prices.Agrees)
    (validator : BboValidator) :
    validator.check prices =
      ({ validator with mismatchSince := some (validator.mismatchSince.getD prices.nowNs) },
        validator.escalate prices.nowNs (validator.mismatchSince.getD prices.nowNs)) := by
  cases bid : prices.bookBidPrice with
  | none => exact absurd (.inl bid) mismatch
  | some bb =>
    cases ask : prices.bookAskPrice with
    | none => exact absurd (.inr (.inl ask)) mismatch
    | some ba =>
      have differs : ¬(bb = prices.bboBidPrice ∧ ba = prices.bboAskPrice) := by
        rintro ⟨rfl, rfl⟩
        exact mismatch (.inr (.inr ⟨bid, ask⟩))
      simp only [check, bid, ask, if_neg differs, escalate]

/-- The timer holds the start of the current run of mismatching checks. -/
private theorem mismatchSince_eq (degradeNs staleNs : Int64) (calls : List BboCall) :
    (machine.final (withThresholds degradeNs staleNs) calls).mismatchSince =
      streakStart BboCall.mismatch? calls := by
  refine machine.timer_eq_streakStart ?_ rfl calls
  rintro validator (prices | _)
  · change (validator.check prices).1.mismatchSince = _
    by_cases agrees : prices.Agrees
    · rw [check_of_agrees agrees, BboCall.mismatch?, if_pos agrees, timerAfter_none]
    · rw [check_of_mismatch agrees, BboCall.mismatch?, if_neg agrees, timerAfter_some]
  · rfl

/-- No call changes the thresholds. -/
private theorem thresholds_final (degradeNs staleNs : Int64) (calls : List BboCall) :
    (machine.final (withThresholds degradeNs staleNs) calls).degradeNs = degradeNs ∧
      (machine.final (withThresholds degradeNs staleNs) calls).staleNs = staleNs := by
  refine machine.invariant (P := fun validator =>
    validator.degradeNs = degradeNs ∧ validator.staleNs = staleNs) ?_ ⟨rfl, rfl⟩ calls
  rintro validator (prices | _) same
  · change (validator.check prices).1.degradeNs = _ ∧ (validator.check prices).1.staleNs = _
    by_cases agrees : prices.Agrees
    · rwa [check_of_agrees agrees]
    · rwa [check_of_mismatch agrees]
  · exact same

end BboValidator

/-- The action a mismatch of a given duration asks for. The reported time is a 64-bit integer, so
it is never more than the largest of these. -/
def actionAfter (degradeNs staleNs elapsed : ℤ) : BboCheckResult ℤ :=
  if staleNs ≤ elapsed then .markStale (min elapsed Int64.maxValue.toInt)
  else if degradeNs ≤ elapsed then .degrade (min elapsed Int64.maxValue.toInt)
  else .ok

open BboValidator

private theorem escalate_eq_actionAfter {validator : BboValidator}
    (degrade : 0 ≤ validator.degradeNs)
    (stale : 0 ≤ validator.staleNs) (nowNs since : Int64) :
    (validator.escalate nowNs since).map Int64.toInt =
      actionAfter validator.degradeNs.toInt validator.staleNs.toInt
        (nowNs.toInt - since.toInt) := by
  have positiveDegrade : 0 ≤ validator.degradeNs.toInt := Int64.le_iff_toInt_le.mp degrade
  have positiveStale : 0 ≤ validator.staleNs.toInt := Int64.le_iff_toInt_le.mp stale
  rw [escalate, actionAfter]
  simp only [Int64.le_saturatingSub_iff stale, Int64.le_saturatingSub_iff degrade]
  split_ifs with old aged
  · rw [BboCheckResult.map, Int64.toInt_saturatingSub_of_nonneg (by omega)]
  · rw [BboCheckResult.map, Int64.toInt_saturatingSub_of_nonneg (by omega)]
  · rfl

/-- In every run a check that agrees returns `ok`, and a mismatch the action for the time since
the first mismatch of the current unbroken run of mismatching checks. -/
theorem escalates_by_duration {degradeNs staleNs : Int64} (nonneg : 0 ≤ degradeNs)
    (ordered : degradeNs ≤ staleNs) (earlier : List BboCall) (prices : BboCheck) :
    (prices.Agrees →
      machine.answer (machine.final (withThresholds degradeNs staleNs) earlier) (.check prices) =
        some .ok) ∧
    (¬prices.Agrees → ∃ since result,
      streakStart BboCall.mismatch? (earlier ++ [.check prices]) = some since ∧
      machine.answer (machine.final (withThresholds degradeNs staleNs) earlier) (.check prices) =
        some result ∧
      result.map Int64.toInt =
        actionAfter degradeNs.toInt staleNs.toInt (prices.nowNs.toInt - since.toInt)) := by
  constructor
  · intro agrees
    exact congrArg (some ∘ Prod.snd) (check_of_agrees agrees _)
  · intro mismatch
    obtain ⟨degrade, stale⟩ := thresholds_final degradeNs staleNs earlier
    have start := mismatchSince_eq degradeNs staleNs earlier
    have timed : BboCall.mismatch? (.check prices) = some prices.nowNs := if_neg mismatch
    generalize machine.final (withThresholds degradeNs staleNs) earlier = validator at *
    subst degrade stale
    refine ⟨_, _, ?_, congrArg (some ∘ Prod.snd) (check_of_mismatch mismatch validator),
      escalate_eq_actionAfter nonneg (Int64.le_trans nonneg ordered) _ _⟩
    rw [streakStart_concat, timed, timerAfter_some, start]

/-- Mismatches at the two ends of the clock: the reported time is the largest integer, the true one
is 2^64 - 1. -/
theorem mismatchNs_saturates :
    machine.answers (withThresholds 0 0)
        [.check ⟨Int64.minValue, some 1, some 2, 0, 0⟩,
          .check ⟨Int64.maxValue, some 1, some 2, 0, 0⟩] =
      [some (.markStale 0), some (.markStale Int64.maxValue)] ∧
    streakStart BboCall.mismatch?
        [.check ⟨Int64.minValue, some 1, some 2, 0, 0⟩,
          .check ⟨Int64.maxValue, some 1, some 2, 0, 0⟩] = some Int64.minValue ∧
    Int64.maxValue.toInt ≠ Int64.maxValue.toInt - Int64.minValue.toInt := by
  decide

/-- A mismatch that has lasted a second. -/
theorem escalates_after_second :
    ∃ since result,
      streakStart BboCall.mismatch?
        ([.check ⟨0, some 1, some 2, 0, 2⟩] ++ [.check ⟨1000000000, some 1, some 2, 0, 2⟩]) =
          some since ∧
      machine.answer (machine.final (withThresholds 250000000 1000000000)
        [.check ⟨0, some 1, some 2, 0, 2⟩]) (.check ⟨1000000000, some 1, some 2, 0, 2⟩) =
          some result ∧
      result.map Int64.toInt = actionAfter (250000000 : Int64).toInt (1000000000 : Int64).toInt
        ((1000000000 : Int64).toInt - since.toInt) :=
  (escalates_by_duration (by decide) (by decide) [.check ⟨0, some 1, some 2, 0, 2⟩]
    ⟨1000000000, some 1, some 2, 0, 2⟩).2 (by decide)

end TradingConnectivity.MarketData
