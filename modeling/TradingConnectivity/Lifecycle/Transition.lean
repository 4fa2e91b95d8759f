import Mathlib.Algebra.BigOperators.Group.List.Basic
import Mathlib.Data.Finset.Dedup
import Mathlib.Data.Finset.Lattice.Lemmas
import TradingConnectivity.Lifecycle.StateMachine
import TradingConnectivity.ToMathlib.FirstByKey

/-! # What one input does to an order

The three state handlers share seven kinds of transition. `processInput_transition` derives them
from the handlers once, with the state and input each one needs; every property of runs is then a
case analysis of `Transition`.
-/

namespace TradingConnectivity.Lifecycle

/-- The quantity of a list of fills, with the machine's own addition. -/
def totalQty (fills : List BufferedFill) : Int64 := (fills.map BufferedFill.fillQty).sum

@[simp] theorem totalQty_nil : totalQty [] = 0 := rfl

@[simp] theorem totalQty_cons (f : BufferedFill) (rest : List BufferedFill) :
    totalQty (f :: rest) = f.fillQty + totalQty rest := rfl

@[simp] theorem totalQty_append (first second : List BufferedFill) :
    totalQty (first ++ second) = totalQty first + totalQty second := by
  simp only [totalQty, List.map_append, List.sum_append]

theorem totalQty_perm {first second : List BufferedFill} (perm : first.Perm second) :
    totalQty first = totalQty second :=
  (perm.map BufferedFill.fillQty).sum_eq

/-- The ways an order reacts to an input. -/
inductive Reaction
  | acknowledge (exchangeId : UInt64)
  | report (trade : Trade)
  | fetch (exchangeId : UInt64) (trades : List Trade)
  | close (target : SmStatus) (action : SmAction)
  | retry
  | ignore
deriving DecidableEq, Repr

/-- The reaction to the outcome of a status check that is consulted. -/
def checkReaction : StatusCheckOutcome → Reaction
  | .live exchangeId => .acknowledge exchangeId
  | .filled exchangeId fills => .fetch exchangeId fills
  | .cancelled _ => .close .cancelled .applyCancel
  | .rejected reason => .close .rejected (.applyReject reason)
  | .expired _ => .close .expired .applyExpire
  | .notFound => .close .rejected (.applyReject "order not found by REST status check")
  | .error _ => .retry

/-- The reaction to an input in each status. -/
def reaction : SmStatus → SmInput → Reaction
  | _, .fillReceived trade _ => .report trade
  | .pending, .acknowledged exchangeId _ => .acknowledge exchangeId
  | .pending, .cancelConfirmed _ => .close .cancelled .applyCancel
  | .pending, .rejected reason _ => .close .rejected (.applyReject reason)
  | .new, .cancelConfirmed _ => .close .cancelled .applyCancel
  | .new, .rejected reason _ => .close .rejected (.applyReject reason)
  | .new, .expired _ => .close .expired .applyExpire
  | .partiallyFilled, .cancelConfirmed _ => .close .cancelled .applyCancel
  | .partiallyFilled, .rejected reason _ => .close .rejected (.applyReject reason)
  | .partiallyFilled, .expired _ => .close .expired .applyExpire
  | .unknownStatus, .acknowledged exchangeId _ => .acknowledge exchangeId
  | .unknownStatus, .cancelConfirmed _ => .close .cancelled .applyCancel
  | .unknownStatus, .statusCheckResult outcome _ => checkReaction outcome
  | _, _ => .ignore

theorem reaction_acknowledge_waits {status : SmStatus} {input : SmInput} {exchangeId : UInt64}
    (reacts : reaction status input = .acknowledge exchangeId) :
    status = .pending ∨ status = .unknownStatus := by
  cases status <;> cases input <;> simp_all [reaction]

theorem reaction_fetch {status : SmStatus} {input : SmInput} {exchangeId : UInt64}
    {trades : List Trade} (reacts : reaction status input = .fetch exchangeId trades) :
    ∃ nowNs, input = .statusCheckResult (.filled exchangeId trades) nowNs := by
  have check (outcome : StatusCheckOutcome)
      (found : checkReaction outcome = .fetch exchangeId trades) :
      outcome = .filled exchangeId trades := by
    cases outcome <;> cases found
    rfl
  cases input with
  | statusCheckResult outcome nowNs =>
    cases status <;> first | exact ⟨nowNs, by rw [check outcome reacts]⟩ | cases reacts
  | _ => cases status <;> cases reacts

theorem reaction_report {status : SmStatus} {input : SmInput} {trade : Trade}
    (reacts : reaction status input = .report trade) :
    ∃ nowNs, input = .fillReceived trade nowNs := by
  have check (outcome : StatusCheckOutcome) : checkReaction outcome ≠ .report trade := by
    cases outcome <;> simp [checkReaction]
  cases input with
  | fillReceived other nowNs =>
    cases reacts
    exact ⟨nowNs, rfl⟩
  | statusCheckResult outcome nowNs =>
    cases status <;> first | exact absurd reacts (check outcome) | cases reacts
  | _ => cases status <;> cases reacts

/-- Closing is one of three terminal statuses with the action of the same name. -/
theorem reaction_close_cases {status : SmStatus} {input : SmInput} {target : SmStatus}
    {action : SmAction} (reacts : reaction status input = .close target action) :
    target = .cancelled ∧ action = .applyCancel ∨
      (target = .rejected ∧ ∃ reason, action = .applyReject reason) ∨
      target = .expired ∧ action = .applyExpire := by
  have check (outcome : StatusCheckOutcome)
      (closes : checkReaction outcome = .close target action) :
      target = .cancelled ∧ action = .applyCancel ∨
        (target = .rejected ∧ ∃ reason, action = .applyReject reason) ∨
        target = .expired ∧ action = .applyExpire := by
    cases outcome <;> cases closes <;> simp
  cases input with
  | statusCheckResult outcome nowNs =>
    cases status <;> first | exact check outcome reacts | cases reacts
  | _ => cases status <;> cases reacts <;> simp

theorem reaction_close_terminal {status : SmStatus} {input : SmInput} {target : SmStatus}
    {action : SmAction} (reacts : reaction status input = .close target action) :
    target.isTerminal = true := by
  rcases reaction_close_cases reacts with ⟨rfl, _⟩ | ⟨rfl, _⟩ | ⟨rfl, _⟩ <;> rfl

theorem reaction_close_action {status : SmStatus} {input : SmInput} {target : SmStatus}
    {action : SmAction} (reacts : reaction status input = .close target action) :
    action ≠ .ignored := by
  rcases reaction_close_cases reacts with ⟨_, rfl⟩ | ⟨_, _, rfl⟩ | ⟨_, rfl⟩ <;> simp

namespace OrderSm

/-- The order after its acknowledgement. -/
def acknowledgedState (sm : OrderSm) : OrderSm :=
  let filledQty := sm.filledQty + Lifecycle.totalQty sm.bufferedFills
  { sm with
    filledQty
    bufferedFills := []
    status :=
      if filledQty ≥ sm.totalQty then .filled
      else if filledQty > 0 then .partiallyFilled
      else .new }

/-- The order after a trade that was kept for later. -/
def bufferedState (sm : OrderSm) (trade : Trade) : OrderSm :=
  { sm with
    seenTradeIds := insert trade.tradeId sm.seenTradeIds
    bufferedFills := sm.bufferedFills ++ [trade.fill] }

/-- The order after a trade that was applied at once. -/
def filledState (sm : OrderSm) (trade : Trade) : OrderSm :=
  { sm with
    seenTradeIds := insert trade.tradeId sm.seenTradeIds
    filledQty := sm.filledQty + trade.fillQty
    status := if sm.filledQty + trade.fillQty ≥ sm.totalQty then .filled else .partiallyFilled }

/-- The trades of a status check that no earlier report has brought. -/
noncomputable def freshTrades (sm : OrderSm) (trades : List Trade) : List Trade :=
  trades.freshBy Trade.tradeId sm.seenTradeIds.toList

/-- The order after a status check that found it filled. -/
noncomputable def fetchedState (sm : OrderSm) (trades : List Trade) : OrderSm :=
  { sm with
    seenTradeIds := sm.seenTradeIds ∪ (trades.map Trade.tradeId).toFinset
    filledQty := sm.filledQty + (Lifecycle.totalQty ((sm.freshTrades trades).map Trade.fill) +
      Lifecycle.totalQty sm.bufferedFills)
    bufferedFills := []
    status := .filled }

end OrderSm

/-- The transitions of an order that is not terminal. -/
inductive Transition (sm : OrderSm) (input : SmInput) : OrderSm → List SmAction → Prop
  | acknowledged {exchangeId : UInt64}
      (reacts : reaction sm.status input = .acknowledge exchangeId) :
      Transition sm input sm.acknowledgedState
        (.applyAck exchangeId :: sm.bufferedFills.map BufferedFill.action)
  | duplicate {trade : Trade} (reacts : reaction sm.status input = .report trade)
      (seen : trade.tradeId ∈ sm.seenTradeIds) : Transition sm input sm [.ignored]
  | buffered {trade : Trade} (reacts : reaction sm.status input = .report trade)
      (unseen : trade.tradeId ∉ sm.seenTradeIds)
      (waiting : sm.status = .pending ∨ sm.status = .unknownStatus) :
      Transition sm input (sm.bufferedState trade) []
  | filled {trade : Trade} (reacts : reaction sm.status input = .report trade)
      (unseen : trade.tradeId ∉ sm.seenTradeIds) (live : sm.status.isLive) :
      Transition sm input (sm.filledState trade) [trade.fill.action]
  | fetched {exchangeId : UInt64} {trades : List Trade}
      (reacts : reaction sm.status input = .fetch exchangeId trades) :
      Transition sm input (sm.fetchedState trades)
        (.applyAck exchangeId ::
          ((sm.freshTrades trades).map Trade.fill ++ sm.bufferedFills).map BufferedFill.action)
  | closed {target : SmStatus} {action : SmAction}
      (reacts : reaction sm.status input = .close target action) :
      Transition sm input { sm with status := target } [action]
  | retried (reacts : reaction sm.status input = .retry) :
      Transition sm input sm [.scheduleStatusCheck]
  | unhandled (reacts : reaction sm.status input = .ignore) : Transition sm input sm [.ignored]

namespace Transition

variable {sm after : OrderSm} {input : SmInput} {actions : List SmAction}

/-- An input that closes an order does nothing else. -/
theorem closed_eq (step : Transition sm input after actions) {target : SmStatus} {action : SmAction}
    (reacts : reaction sm.status input = .close target action) :
    after = { sm with status := target } ∧ actions = [action] := by
  cases step with
  | closed found =>
    rw [reacts] at found
    cases found
    exact ⟨rfl, rfl⟩
  | acknowledged found | duplicate found | buffered found | filled found | fetched found
  | retried found | unhandled found =>
    rw [reacts] at found
    cases found

/-- A consulted status check that found the order filled acknowledges it and applies what the
fetched trades add, followed by the fills kept so far. -/
theorem fetched_eq (step : Transition sm input after actions) {exchangeId : UInt64}
    {trades : List Trade} (reacts : reaction sm.status input = .fetch exchangeId trades) :
    after = sm.fetchedState trades ∧ actions = .applyAck exchangeId ::
      ((sm.freshTrades trades).map Trade.fill ++ sm.bufferedFills).map BufferedFill.action := by
  cases step with
  | fetched found =>
    rw [reacts] at found
    cases found
    exact ⟨rfl, rfl⟩
  | acknowledged found | duplicate found | buffered found | filled found | closed found
  | retried found | unhandled found =>
    rw [reacts] at found
    cases found

end Transition

namespace OrderSm

/-- The flush adds the buffered quantities and emits the buffered fills in order. -/
private theorem applyBuffered_eq (sm : OrderSm) (actions : List SmAction)
    (fills : List BufferedFill) :
    sm.applyBuffered actions fills =
      ({ sm with filledQty := sm.filledQty + Lifecycle.totalQty fills },
        actions ++ fills.map BufferedFill.action) := by
  induction fills generalizing sm actions with
  | nil => simp [applyBuffered]
  | cons f rest ih =>
    simp only [applyBuffered, ih, totalQty_cons, Int64.add_assoc, List.append_assoc,
      List.singleton_append, List.map_cons, BufferedFill.action]

/-- A trade whose id is known adds nothing, another one is kept and its id recorded. -/
private theorem freshTrades_cons (sm : OrderSm) (t : Trade) (rest : List Trade) :
    sm.freshTrades (t :: rest) =
      if t.tradeId ∈ sm.seenTradeIds then sm.freshTrades rest
      else t :: (sm.filledState t).freshTrades rest := by
  simp only [freshTrades, List.freshBy_cons, Finset.mem_toList, filledState]
  split
  · rfl
  · congr 1
    apply List.freshBy_congr
    simp

/-- The trade loop applies exactly the fresh trades and records every id. -/
theorem applyTrades_eq (sm : OrderSm) (actions : List SmAction) (trades : List Trade) :
    sm.applyTrades actions trades =
      ({ sm with
          seenTradeIds := sm.seenTradeIds ∪ (trades.map Trade.tradeId).toFinset
          filledQty := sm.filledQty + Lifecycle.totalQty ((sm.freshTrades trades).map Trade.fill) },
        actions ++ ((sm.freshTrades trades).map Trade.fill).map BufferedFill.action) := by
  induction trades generalizing sm actions with
  | nil => simp [applyTrades, freshTrades, List.freshBy_nil]
  | cons t rest ih =>
    rw [applyTrades, freshTrades_cons]
    split
    · rename_i seen
      have known : sm.seenTradeIds ∪ ((t :: rest).map Trade.tradeId).toFinset =
          sm.seenTradeIds ∪ (rest.map Trade.tradeId).toFinset := by
        ext id
        simp only [List.map_cons, List.toFinset_cons, Finset.mem_union, Finset.mem_insert]
        grind
      rw [ih, known]
    · have recorded : insert t.tradeId sm.seenTradeIds ∪ (rest.map Trade.tradeId).toFinset =
          sm.seenTradeIds ∪ ((t :: rest).map Trade.tradeId).toFinset := by
        ext id
        simp only [List.map_cons, List.toFinset_cons, Finset.mem_union, Finset.mem_insert]
        grind
      have same (other : OrderSm) (equal : other.seenTradeIds = insert t.tradeId sm.seenTradeIds) :
          other.freshTrades rest = (sm.filledState t).freshTrades rest := by
        simp only [freshTrades, equal, filledState]
      rw [ih, same _ rfl, recorded]
      simp only [List.map_cons, totalQty_cons, Trade.fill, BufferedFill.action, Int64.add_assoc,
        List.append_assoc, List.singleton_append]

private theorem acknowledge_eq (sm : OrderSm) (exchangeId : UInt64) :
    sm.acknowledge exchangeId = (sm.acknowledgedState,
      .applyAck exchangeId :: sm.bufferedFills.map BufferedFill.action) := by
  simp only [acknowledge, applyBuffered_eq, statusAfterFlush, acknowledgedState,
    List.singleton_append]

private theorem resolveFromCheck_filled (sm : OrderSm) (exchangeId : UInt64) (trades : List Trade) :
    sm.resolveFromCheck (.filled exchangeId trades) = (sm.fetchedState trades,
      .applyAck exchangeId ::
        ((sm.freshTrades trades).map Trade.fill ++ sm.bufferedFills).map BufferedFill.action) := by
  simp only [resolveFromCheck, applyTrades_eq, applyBuffered_eq, fetchedState, Int64.add_assoc,
    List.cons_append, List.nil_append, List.map_append]

/-- The trade of an execution report is kept while the order waits. -/
private theorem bufferFill_transition {sm : OrderSm} {input : SmInput} {trade : Trade}
    (reacts : reaction sm.status input = .report trade)
    (waiting : sm.status = .pending ∨ sm.status = .unknownStatus) :
    Transition sm input (sm.bufferFill trade).1 (sm.bufferFill trade).2 := by
  unfold bufferFill
  split
  · rename_i seen
    exact .duplicate reacts seen
  · rename_i unseen
    exact .buffered reacts unseen waiting

private theorem processPending_transition {sm : OrderSm} (pending : sm.status = .pending)
    (input : SmInput) :
    Transition sm input (sm.processPending input).1 (sm.processPending input).2 := by
  cases input with
  | acknowledged exchangeId nowNs =>
    rw [processPending, acknowledge_eq]
    exact .acknowledged (by rw [pending]; rfl)
  | fillReceived trade nowNs => exact bufferFill_transition (by rw [pending]; rfl) (.inl pending)
  | cancelConfirmed nowNs => exact .closed (by rw [pending]; rfl)
  | rejected reason nowNs => exact .closed (by rw [pending]; rfl)
  | expired nowNs => exact .unhandled (by rw [pending]; rfl)
  | statusCheckResult outcome nowNs => exact .unhandled (by rw [pending]; rfl)

private theorem processLive_transition {sm : OrderSm}
    (live : sm.status = .new ∨ sm.status = .partiallyFilled) (input : SmInput) :
    Transition sm input (sm.processLive input).1 (sm.processLive input).2 := by
  cases input with
  | acknowledged exchangeId nowNs =>
    exact .unhandled (by rcases live with status | status <;> rw [status] <;> rfl)
  | fillReceived trade nowNs =>
    simp only [processLive]
    split
    · rename_i seen
      exact .duplicate (by rcases live with status | status <;> rw [status] <;> rfl) seen
    · rename_i unseen
      exact .filled (by rcases live with status | status <;> rw [status] <;> rfl) unseen
        (by rcases live with status | status <;> rw [status] <;> rfl)
  | cancelConfirmed nowNs =>
    exact .closed (by rcases live with status | status <;> rw [status] <;> rfl)
  | rejected reason nowNs =>
    exact .closed (by rcases live with status | status <;> rw [status] <;> rfl)
  | expired nowNs => exact .closed (by rcases live with status | status <;> rw [status] <;> rfl)
  | statusCheckResult outcome nowNs =>
    exact .unhandled (by rcases live with status | status <;> rw [status] <;> rfl)

private theorem resolveFromCheck_transition {sm : OrderSm} (unknown : sm.status = .unknownStatus)
    (outcome : StatusCheckOutcome) (nowNs : Int64) :
    Transition sm (.statusCheckResult outcome nowNs) (sm.resolveFromCheck outcome).1
      (sm.resolveFromCheck outcome).2 := by
  cases outcome with
  | live exchangeId =>
    rw [resolveFromCheck, acknowledge_eq]
    exact .acknowledged (by rw [unknown]; rfl)
  | filled exchangeId fills =>
    rw [resolveFromCheck_filled]
    exact .fetched (by rw [unknown]; rfl)
  | cancelled exchangeId => exact .closed (by rw [unknown]; rfl)
  | rejected reason => exact .closed (by rw [unknown]; rfl)
  | expired exchangeId => exact .closed (by rw [unknown]; rfl)
  | notFound => exact .closed (by rw [unknown]; rfl)
  | error reason => exact .retried (by rw [unknown]; rfl)

private theorem processUnknown_transition {sm : OrderSm} (unknown : sm.status = .unknownStatus)
    (input : SmInput) :
    Transition sm input (sm.processUnknown input).1 (sm.processUnknown input).2 := by
  cases input with
  | acknowledged exchangeId nowNs =>
    rw [processUnknown, acknowledge_eq]
    exact .acknowledged (by rw [unknown]; rfl)
  | fillReceived trade nowNs => exact bufferFill_transition (by rw [unknown]; rfl) (.inr unknown)
  | cancelConfirmed nowNs => exact .closed (by rw [unknown]; rfl)
  | rejected reason nowNs => exact .unhandled (by rw [unknown]; rfl)
  | expired nowNs => exact .unhandled (by rw [unknown]; rfl)
  | statusCheckResult outcome nowNs => exact resolveFromCheck_transition unknown outcome nowNs

/-- Everything an input can do to an order that is not terminal. -/
theorem processInput_transition {sm : OrderSm} (running : sm.status.isTerminal = false)
    (input : SmInput) :
    Transition sm input (sm.processInput input).1 (sm.processInput input).2 := by
  rw [processInput, if_neg (by simp only [running, Bool.false_eq_true, not_false_eq_true])]
  cases status : sm.status with
  | pending => exact processPending_transition status input
  | new => exact processLive_transition (.inl status) input
  | partiallyFilled => exact processLive_transition (.inr status) input
  | unknownStatus => exact processUnknown_transition status input
  | filled | cancelled | rejected | expired =>
    rw [status] at running
    cases running

/-- The timer only ever moves a pending order. -/
theorem tick_cases (sm : OrderSm) (timeoutNs nowNs : Int64) :
    sm.tick timeoutNs nowNs = (sm, []) ∨
      sm.status = .pending ∧
        sm.tick timeoutNs nowNs =
          ({ sm with status := .unknownStatus }, [.scheduleStatusCheck]) := by
  unfold tick
  split
  · rename_i late
    exact .inr ⟨late.1, rfl⟩
  · exact .inl rfl

end OrderSm

end TradingConnectivity.Lifecycle
