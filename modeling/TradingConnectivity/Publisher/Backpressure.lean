import TradingConnectivity.Machine.Streak
import TradingConnectivity.ToMathlib.FixedWidth

/-! # Back-pressure escalation

The guard of a publication times how long offers have been pushed back and escalates its outcome.
`escalates_by_window` states the outcomes through the streak of retryable results: an accepted
offer, a terminal failure and a reset end it.
-/

namespace TradingConnectivity.Publisher

open Machine

/-- Result of a single offer. -/
inductive OfferResult
  | ok (position : Int64)
  | backPressured
  | adminAction
  | closed
  | maxPositionExceeded
  deriving DecidableEq

def OfferResult.isOk : OfferResult → Bool
  | ok _ => true
  | _ => false

/-- The caller should retry the same offer. -/
def OfferResult.shouldRetry : OfferResult → Bool
  | backPressured | adminAction => true
  | ok _ | closed | maxPositionExceeded => false

/-- Outcome of one guarded offer. -/
inductive OfferOutcome
  | accepted (position : Int64)
  | retrying
  | warned
  | degrade
  | restart
  | closed
  deriving DecidableEq

/-- The place of an outcome in the escalation. -/
def OfferOutcome.severity : OfferOutcome → ℕ
  | accepted _ => 0
  | retrying => 1
  | warned => 2
  | degrade => 3
  | restart => 4
  | closed => 5

/-- `bpStartNs` is the start of the current back-pressure window; `warned` says that its warning
was logged. -/
structure BackpressureGuard where
  bpStartNs : Option Int64
  warned : Bool
  warnNs : Int64
  degradeNs : Int64
  restartNs : Int64
  deriving DecidableEq

/-- The calls of a run, an offer with the result the publication gave. -/
inductive GuardCall
  | tryOffer (offered : OfferResult) (nowNs : Int64)
  | reset
  deriving DecidableEq

/-- The time of an offer that was pushed back; every other call has none. -/
def GuardCall.pushedBack? : GuardCall → Option Int64
  | tryOffer offered nowNs => if offered.shouldRetry then some nowNs else none
  | reset => none

def GuardCall.nowNs? : GuardCall → Option Int64
  | tryOffer _ nowNs => some nowNs
  | reset => none

namespace BackpressureGuard

def withThresholds (warnNs degradeNs restartNs : Int64) : BackpressureGuard where
  bpStartNs := none
  warned := false
  warnNs := warnNs
  degradeNs := degradeNs
  restartNs := restartNs

def reset (guard : BackpressureGuard) : BackpressureGuard :=
  { guard with bpStartNs := none, warned := false }

/-- The escalation of an offer that was pushed back. The window stays active after a restart. -/
def pushBack (guard : BackpressureGuard) (nowNs : Int64) : BackpressureGuard × OfferOutcome :=
  let start := guard.bpStartNs.getD nowNs
  let elapsed := nowNs.saturatingSub start
  let guard := { guard with bpStartNs := some start }
  if guard.restartNs ≤ elapsed then (guard, .restart)
  else if guard.degradeNs ≤ elapsed then (guard, .degrade)
  else if guard.warnNs ≤ elapsed then ({ guard with warned := true }, .warned)
  else (guard, .retrying)

/-- One offer at a given time, from the result of the publication. -/
def tryOfferAt (guard : BackpressureGuard) (offered : OfferResult) (nowNs : Int64) :
    BackpressureGuard × OfferOutcome :=
  match offered with
  | .ok position => (guard.reset, .accepted position)
  | .backPressured | .adminAction => guard.pushBack nowNs
  | .closed | .maxPositionExceeded => (guard.reset, .closed)

/-- The guard under a sequence of calls; a reset returns nothing. -/
def machine : Machine BackpressureGuard GuardCall (Option OfferOutcome) where
  step guard
    | .tryOffer offered nowNs =>
        ((guard.tryOfferAt offered nowNs).1, some (guard.tryOfferAt offered nowNs).2)
    | .reset => (guard.reset, none)

/-- The outcome of an offer that was pushed back, when its window began at `start`. -/
def outcome (guard : BackpressureGuard) (nowNs start : Int64) : OfferOutcome :=
  if guard.restartNs ≤ nowNs.saturatingSub start then .restart
  else if guard.degradeNs ≤ nowNs.saturatingSub start then .degrade
  else if guard.warnNs ≤ nowNs.saturatingSub start then .warned
  else .retrying

private theorem tryOfferAt_of_retry {offered : OfferResult} (retry : offered.shouldRetry)
    (guard : BackpressureGuard) (nowNs : Int64) :
    guard.tryOfferAt offered nowNs = guard.pushBack nowNs := by
  cases offered with
  | backPressured | adminAction => rfl
  | ok _ | closed | maxPositionExceeded => cases retry

/-- Every other result closes the window. -/
private theorem tryOfferAt_of_final {offered : OfferResult} (final : ¬offered.shouldRetry)
    (guard : BackpressureGuard) (nowNs : Int64) :
    (guard.tryOfferAt offered nowNs).1 = guard.reset := by
  cases offered with
  | backPressured | adminAction => exact absurd rfl final
  | ok _ | closed | maxPositionExceeded => rfl

private theorem pushBack_outcome (guard : BackpressureGuard) (nowNs : Int64) :
    (guard.pushBack nowNs).2 = guard.outcome nowNs (guard.bpStartNs.getD nowNs) := by
  simp only [pushBack, outcome]
  split_ifs <;> rfl

/-- Pushing back an offer starts the window or leaves its start, and changes no threshold. -/
private theorem pushBack_guard (guard : BackpressureGuard) (nowNs : Int64) :
    ∃ warned, (guard.pushBack nowNs).1 =
      { guard with bpStartNs := some (guard.bpStartNs.getD nowNs), warned := warned } := by
  simp only [pushBack]
  split_ifs
  · exact ⟨guard.warned, rfl⟩
  · exact ⟨guard.warned, rfl⟩
  · exact ⟨true, rfl⟩
  · exact ⟨guard.warned, rfl⟩

/-- The window begins with the first pushed-back offer of the streak. -/
private theorem bpStartNs_eq (warnNs degradeNs restartNs : Int64) (calls : List GuardCall) :
    (machine.final (withThresholds warnNs degradeNs restartNs) calls).bpStartNs =
      streakStart GuardCall.pushedBack? calls := by
  refine machine.timer_eq_streakStart ?_ rfl calls
  rintro guard (⟨offered, nowNs⟩ | _)
  · change (guard.tryOfferAt offered nowNs).1.bpStartNs = _
    by_cases retry : offered.shouldRetry
    · obtain ⟨warned, same⟩ := pushBack_guard guard nowNs
      rw [tryOfferAt_of_retry retry, same, GuardCall.pushedBack?, if_pos retry, timerAfter_some]
    · rw [tryOfferAt_of_final retry, GuardCall.pushedBack?, if_neg retry, timerAfter_none]
      rfl
  · rfl

/-- A guard outside a window is a new guard with its thresholds. -/
private theorem reset_final (warnNs degradeNs restartNs : Int64) (calls : List GuardCall) :
    (machine.final (withThresholds warnNs degradeNs restartNs) calls).reset =
      withThresholds warnNs degradeNs restartNs := by
  refine machine.invariant (P := fun guard =>
    guard.reset = withThresholds warnNs degradeNs restartNs) ?_ rfl calls
  rintro guard (⟨offered, nowNs⟩ | _) same
  · change (guard.tryOfferAt offered nowNs).1.reset = _
    by_cases retry : offered.shouldRetry
    · obtain ⟨warned, kept⟩ := pushBack_guard guard nowNs
      rw [tryOfferAt_of_retry retry, kept]
      exact same
    · rw [tryOfferAt_of_final retry]
      exact same
  · exact same

end BackpressureGuard

/-- The outcome that a window of a given length asks for. -/
def outcomeAfter (warnNs degradeNs restartNs elapsed : ℤ) : OfferOutcome :=
  if restartNs ≤ elapsed then .restart
  else if degradeNs ≤ elapsed then .degrade
  else if warnNs ≤ elapsed then .warned
  else .retrying

/-- A longer window is at least as severe. -/
private theorem severity_outcomeAfter_mono {warnNs degradeNs restartNs shorter longer : ℤ}
    (length : shorter ≤ longer) :
    (outcomeAfter warnNs degradeNs restartNs shorter).severity ≤
      (outcomeAfter warnNs degradeNs restartNs longer).severity := by
  rw [outcomeAfter, outcomeAfter]
  split_ifs <;> simp only [OfferOutcome.severity] <;> omega

/-- Thresholds in the order of the escalation. -/
structure OrderedThresholds (warnNs degradeNs restartNs : Int64) : Prop where
  nonneg : 0 ≤ warnNs
  warn_le_degrade : warnNs ≤ degradeNs
  degrade_le_restart : degradeNs ≤ restartNs

open BackpressureGuard

section Window

variable {warnNs degradeNs restartNs : Int64}

/-- A retryable offer returns what the length of its window asks for. -/
theorem answer_of_retry (thresholds : OrderedThresholds warnNs degradeNs restartNs)
    (earlier : List GuardCall) {offered : OfferResult} (retry : offered.shouldRetry)
    (nowNs : Int64) :
    ∃ start,
      streakStart GuardCall.pushedBack? (earlier ++ [.tryOffer offered nowNs]) = some start ∧
      machine.answer (machine.final (withThresholds warnNs degradeNs restartNs) earlier)
          (.tryOffer offered nowNs) =
        some (outcomeAfter warnNs.toInt degradeNs.toInt restartNs.toInt
          (nowNs.toInt - start.toInt)) := by
  have start := bpStartNs_eq warnNs degradeNs restartNs earlier
  have new := reset_final warnNs degradeNs restartNs earlier
  have timed : GuardCall.pushedBack? (.tryOffer offered nowNs) = some nowNs := if_pos retry
  have degrade := Int64.le_trans thresholds.nonneg thresholds.warn_le_degrade
  have restart := Int64.le_trans degrade thresholds.degrade_le_restart
  generalize machine.final (withThresholds warnNs degradeNs restartNs) earlier = guard at *
  obtain ⟨-, -, rfl, rfl, rfl⟩ := BackpressureGuard.mk.inj new
  refine ⟨guard.bpStartNs.getD nowNs, ?_, ?_⟩
  · rw [streakStart_concat, timed, timerAfter_some, start]
  · change some (guard.tryOfferAt offered nowNs).2 = _
    rw [tryOfferAt_of_retry retry, pushBack_outcome, outcome, outcomeAfter]
    simp only [Int64.le_saturatingSub_iff thresholds.nonneg, Int64.le_saturatingSub_iff degrade,
      Int64.le_saturatingSub_iff restart]

/-- What a run of offers and resets shows: outcomes by the age of the window, severities that
never decrease within one, and a new guard after an accepted or a closed offer. -/
structure EscalatesByWindow (warnNs degradeNs restartNs : Int64) (calls : List GuardCall) :
    Prop where
  exact : ∀ earlier offered nowNs later, calls = earlier ++ .tryOffer offered nowNs :: later →
    offered.shouldRetry → ∃ start,
      streakStart GuardCall.pushedBack? (earlier ++ [.tryOffer offered nowNs]) = some start ∧
      machine.answer (machine.final (withThresholds warnNs degradeNs restartNs) earlier)
          (.tryOffer offered nowNs) =
        some (outcomeAfter warnNs.toInt degradeNs.toInt restartNs.toInt
          (nowNs.toInt - start.toInt))
  monotone : ∀ earlier first firstNs between second secondNs later,
    calls = earlier ++ .tryOffer first firstNs ::
      (between ++ .tryOffer second secondNs :: later) →
    first.shouldRetry → second.shouldRetry →
    (∀ call ∈ between, call.pushedBack?.isSome) →
    ∀ less more,
      machine.answer (machine.final (withThresholds warnNs degradeNs restartNs) earlier)
        (.tryOffer first firstNs) = some less →
      machine.answer (machine.final (withThresholds warnNs degradeNs restartNs)
        (earlier ++ .tryOffer first firstNs :: between)) (.tryOffer second secondNs) = some more →
      less.severity ≤ more.severity
  renewed : ∀ earlier call later outcome, calls = earlier ++ call :: later →
    machine.answer (machine.final (withThresholds warnNs degradeNs restartNs) earlier) call =
      some outcome →
    (outcome = .closed ∨ ∃ position, outcome = .accepted position) →
    machine.final (withThresholds warnNs degradeNs restartNs) (earlier ++ [call]) =
      withThresholds warnNs degradeNs restartNs

/-- An outcome that is not a retry comes from a result that closes the window. -/
private theorem not_shouldRetry_of_outcome {guard : BackpressureGuard} {offered : OfferResult}
    {nowNs : Int64} (done : (guard.tryOfferAt offered nowNs).2 = .closed ∨
      ∃ position, (guard.tryOfferAt offered nowNs).2 = .accepted position) :
    ¬offered.shouldRetry := by
  intro retry
  rw [tryOfferAt_of_retry retry, pushBack_outcome, outcome] at done
  split_ifs at done <;> rcases done with closed | ⟨position, accepted⟩ <;> contradiction

/-- Every run escalates by the window. -/
theorem escalates_by_window (thresholds : OrderedThresholds warnNs degradeNs restartNs)
    {calls : List GuardCall}
    (ordered : (calls.filterMap GuardCall.nowNs?).Pairwise (· ≤ ·)) :
    EscalatesByWindow warnNs degradeNs restartNs calls where
  exact earlier offered nowNs _ _ retry := answer_of_retry thresholds earlier retry nowNs
  monotone := by
    rintro earlier first firstNs between second secondNs later rfl retryFirst retrySecond timed
      less more outcomeFirst outcomeSecond
    obtain ⟨start, began, answerFirst⟩ := answer_of_retry thresholds earlier retryFirst firstNs
    obtain ⟨same, continued, answerSecond⟩ := answer_of_retry thresholds
      (earlier ++ .tryOffer first firstNs :: between) retrySecond secondNs
    have window : ∀ call ∈ between ++ [.tryOffer second secondNs], call.pushedBack?.isSome := by
      rw [List.forall_mem_append, List.forall_mem_singleton]
      refine ⟨timed, ?_⟩
      rw [GuardCall.pushedBack?, if_pos retrySecond]
      rfl
    have kept := streakStart_append began window
    rw [← List.append_cons] at kept
    rw [List.append_assoc, List.cons_append] at continued
    obtain rfl := Option.some.inj (kept.symm.trans continued)
    obtain rfl := Option.some.inj (outcomeFirst.symm.trans answerFirst)
    obtain rfl := Option.some.inj (outcomeSecond.symm.trans answerSecond)
    rw [List.filterMap_append] at ordered
    have times := (List.pairwise_cons.mp (List.pairwise_append.mp ordered).2.1).1
    have waited : firstNs ≤ secondNs := times secondNs (List.mem_filterMap.mpr
      ⟨.tryOffer second secondNs, List.mem_append_right _ List.mem_cons_self, rfl⟩)
    refine severity_outcomeAfter_mono ?_
    have exactly := Int64.le_iff_toInt_le.mp waited
    omega
  renewed := by
    rintro earlier call later result rfl answered done
    rw [final_append]
    cases call with
    | reset => cases answered
    | tryOffer offered nowNs =>
      obtain rfl := Option.some.inj answered
      have final := not_shouldRetry_of_outcome done
      have new := reset_final warnNs degradeNs restartNs earlier
      exact (tryOfferAt_of_final final _ nowNs).trans new

end Window

/-- A window that reaches its restart threshold and is closed by the next message. -/
theorem escalates_to_restart :
    EscalatesByWindow 100 1000 10000 [.tryOffer .backPressured 0, .tryOffer .adminAction 150,
      .tryOffer .backPressured 10000, .tryOffer (.ok 7) 10001, .reset] :=
  escalates_by_window ⟨by decide, by decide, by decide⟩ (by decide)

end TradingConnectivity.Publisher
