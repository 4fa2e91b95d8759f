import TradingConnectivity.Lifecycle.Fills

/-! # Final reports

An input that reports the end of an order should end it. Whether a handler honours such a report
depends on the status the order is in: `heeds_iff` states, after every run, exactly which reports
are honoured and that nothing else is ignored but repetitions and status checks without news.
-/

namespace TradingConnectivity.Lifecycle

open Gateway (ClientOrderId)

/-- The terminal status an input reports, if it reports the end of an order. An order the exchange
does not know counts as rejected. -/
def reportedEnd : SmInput → Option SmStatus
  | .cancelConfirmed _ => some .cancelled
  | .rejected _ _ => some .rejected
  | .expired _ => some .expired
  | .statusCheckResult (.filled _ _) _ => some .filled
  | .statusCheckResult (.cancelled _) _ => some .cancelled
  | .statusCheckResult (.rejected _) _ => some .rejected
  | .statusCheckResult (.expired _) _ => some .expired
  | .statusCheckResult .notFound _ => some .rejected
  | _ => none

/-- The inputs that may be ignored after a run: a trade examined before, an acknowledgement of an
acknowledged order, and a status check that reports no end. -/
def Ignorable (cloid : ClientOrderId) (past : List EngineEvent) : SmInput → Prop
  | .fillReceived trade _ =>
      trade.tradeId ∈ (past.flatMap (observe examined cloid)).map Trade.tradeId
  | .acknowledged _ _ => ∃ exchangeId, .applyAck exchangeId ∈ past.flatMap (actionsIn cloid)
  | .statusCheckResult outcome nowNs => reportedEnd (.statusCheckResult outcome nowNs) = none
  | _ => False

/-- The order heeds an input after a run: a reported end is reached and the order untracked, and
the input is ignored only if it may be. -/
structure Heeds (engine : StateMachineEngine) (cloid : ClientOrderId)
    (orderQty submittedNs : Int64) (ops : List EngineOp) (input : SmInput) : Prop where
  final : ∀ target, reportedEnd input = some target →
    (lastState engine.timeoutNs cloid orderQty submittedNs
        (ops ++ [.process cloid input])).status = target ∧
      (engineMachine.final (engine.track cloid orderQty submittedNs)
        (ops ++ [.process cloid input])).isTracked cloid = false
  ignored : .ignored ∈ actionsFor cloid (engineMachine.answer
        (engineMachine.final (engine.track cloid orderQty submittedNs) ops)
        (.process cloid input)) →
    Ignorable cloid (engineMachine.history (engine.track cloid orderQty submittedNs) ops) input

/-- The statuses in which the reports of an end are honoured. -/
def honours (status : SmStatus) : SmInput → Bool
  | .rejected _ _ => status ≠ .unknownStatus
  | .expired _ => status.isLive
  | .statusCheckResult outcome nowNs =>
      (reportedEnd (.statusCheckResult outcome nowNs)).isNone || status = .unknownStatus
  | _ => true

/-- An honoured report closes the order with the status it reports. -/
theorem reaction_of_honours {status target : SmStatus} {input : SmInput}
    (running : status.isTerminal = false) (ends : reportedEnd input = some target)
    (honoured : honours status input) :
    (∃ action, reaction status input = .close target action) ∨
      target = .filled ∧ ∃ exchangeId trades, reaction status input = .fetch exchangeId trades := by
  cases input with
  | statusCheckResult outcome nowNs =>
    have unknown : status = .unknownStatus := by
      simpa [honours, ends] using honoured
    subst unknown
    cases outcome <;> cases ends <;> simp [reaction, checkReaction]
  | acknowledged | fillReceived => cases ends
  | _ =>
    cases ends
    cases status <;> simp_all [reaction, honours, SmStatus.isLive, SmStatus.isTerminal]

private theorem reportedEnd_terminal {input : SmInput} {target : SmStatus}
    (ends : reportedEnd input = some target) : target.isTerminal = true := by
  unfold reportedEnd at ends
  split at ends <;> cases ends <;> rfl

/-- A report that is not honoured is ignored. -/
private theorem reaction_of_not_honours {status : SmStatus} {input : SmInput}
    (running : status.isTerminal = false) (ignored : honours status input = false) :
    reaction status input = .ignore ∧ (reportedEnd input).isSome := by
  cases input with
  | statusCheckResult outcome nowNs =>
    cases status <;> cases outcome <;> simp_all [honours, reportedEnd, reaction]
  | _ =>
    cases status <;> simp_all [honours, reportedEnd, reaction, SmStatus.isLive, SmStatus.isTerminal]

/-- What an order ignores without looking at trade ids, where every report is honoured. -/
private theorem ignore_cases {status : SmStatus} {input : SmInput}
    (running : status.isTerminal = false)
    (honoured : honours status input) (ignores : reaction status input = .ignore) :
    (∃ exchangeId nowNs, input = .acknowledged exchangeId nowNs ∧ status.isLive) ∨
      ∃ outcome nowNs, input = .statusCheckResult outcome nowNs ∧ reportedEnd input = none := by
  cases input with
  | statusCheckResult outcome nowNs =>
    refine .inr ⟨outcome, nowNs, rfl, ?_⟩
    cases status <;> cases outcome <;> simp_all [honours, reportedEnd, reaction, checkReaction]
  | _ =>
    cases status <;> simp_all [honours, reaction, SmStatus.isLive, SmStatus.isTerminal]

/-- An order goes live by an acknowledgement. -/
private theorem Transition.live_cases {sm after : OrderSm} {input : SmInput}
    {actions : List SmAction}
    (step : Transition sm input after actions) (live : after.status.isLive) :
    sm.status.isLive ∨ ∃ exchangeId, .applyAck exchangeId ∈ actions := by
  cases step with
  | acknowledged reacts => exact .inr ⟨_, List.mem_cons_self⟩
  | filled reacts unseen isLive => exact .inl isLive
  | fetched reacts => exact .inr ⟨_, List.mem_cons_self⟩
  | closed reacts =>
    rename_i target action
    have terminal := reaction_close_terminal reacts
    change target.isLive at live
    cases target <;> cases live <;> cases terminal
  | duplicate | buffered | retried | unhandled => exact .inl live

/-- A live order has been acknowledged. -/
theorem acknowledged_of_live (timeoutNs : Int64) (cloid : ClientOrderId)
    (orderQty submittedNs : Int64) (ops : List EngineOp) :
    (lastState timeoutNs cloid orderQty submittedNs ops).status.isLive →
      ∃ exchangeId, .applyAck exchangeId ∈
        (orderHistory timeoutNs cloid orderQty submittedNs ops).flatMap (·.output) := by
  refine (orderMachine timeoutNs).history_induction (.new cloid orderQty submittedNs)
    (P := fun past sm =>
      sm.status.isLive → ∃ exchangeId, .applyAck exchangeId ∈ past.flatMap (·.output))
    (by rintro ⟨⟩) ?_ (eventsFor cloid ops)
  intro past sm event earlier live
  rw [List.flatMap_append, List.flatMap_singleton]
  have moves := orderMachine_moves timeoutNs sm event
  generalize (orderMachine timeoutNs).next sm event = after at moves live
  generalize (orderMachine timeoutNs).answer sm event = actions at moves ⊢
  have before (isLive : sm.status.isLive) :
      ∃ exchangeId, .applyAck exchangeId ∈ past.flatMap (·.output) ++ actions := by
    obtain ⟨exchangeId, member⟩ := earlier isLive
    exact ⟨exchangeId, List.mem_append_left _ member⟩
  cases moves with
  | processed running step =>
    rcases step.live_cases live with isLive | ⟨exchangeId, member⟩
    · exact before isLive
    · exact ⟨exchangeId, List.mem_append_right _ member⟩
  | late pending => cases live
  | ended | waited => exact before live

/-- An ignored input leaves the status alone. -/
private theorem Transition.status_of_ignore {sm after : OrderSm} {input : SmInput}
    {actions : List SmAction} (step : Transition sm input after actions)
    (reacts : reaction sm.status input = .ignore) : after.status = sm.status := by
  cases step <;> simp_all

/-- Only a repetition or an unhandled input is answered by `ignored`. -/
theorem Transition.ignored_cases {sm after : OrderSm} {input : SmInput} {actions : List SmAction}
    (step : Transition sm input after actions) (ignored : .ignored ∈ actions) :
    (∃ trade, reaction sm.status input = .report trade ∧ trade.tradeId ∈ sm.seenTradeIds) ∨
      reaction sm.status input = .ignore := by
  have noFill (fills : List BufferedFill) : .ignored ∉ fills.map BufferedFill.action := by
    simp [BufferedFill.action]
  cases step with
  | duplicate reacts seen => exact .inl ⟨_, reacts, seen⟩
  | unhandled reacts => exact .inr reacts
  | acknowledged reacts | fetched reacts =>
    rcases List.mem_cons.mp ignored with same | member
    · cases same
    · exact absurd member (noFill _)
  | closed reacts =>
    obtain rfl := List.mem_singleton.mp ignored
    exact absurd rfl (reaction_close_action reacts)
  | buffered | filled | retried => simp [BufferedFill.action] at ignored

/-- After every run that leaves an order tracked, an input is heeded if and only if the handler of
the order's status honours the report in it. -/
theorem heeds_iff (engine : StateMachineEngine) (cloid : ClientOrderId)
    (orderQty submittedNs : Int64) {ops : List EngineOp}
    (lifetime : ∀ op ∈ ops, op.Spares cloid) {status : SmStatus}
    (tracked : (engineMachine.final (engine.track cloid orderQty submittedNs) ops).status cloid =
      some status) (input : SmInput) :
    Heeds engine cloid orderQty submittedNs ops input ↔ honours status input := by
  have further : ∀ op ∈ ops ++ [.process cloid input], op.Spares cloid :=
    List.forall_mem_append.mpr ⟨lifetime, List.forall_mem_singleton.mpr trivial⟩
  rw [status_final engine orderQty submittedNs lifetime] at tracked
  cases running :
      (lastState engine.timeoutNs cloid orderQty submittedNs ops).status.isTerminal with
  | true =>
    rw [running, if_pos rfl] at tracked
    cases tracked
  | false =>
    rw [running, if_neg Bool.false_ne_true] at tracked
    obtain rfl := Option.some.inj tracked
    have step := OrderSm.processInput_transition running input
    have next := lastState_process running input
    constructor
    · intro heeds
      by_contra refused
      obtain ⟨reacts, ends⟩ := reaction_of_not_honours running (Bool.not_eq_true _ ▸ refused)
      obtain ⟨target, ends⟩ := Option.isSome_iff_exists.mp ends
      have reached := (heeds.final target ends).1
      rw [next, step.status_of_ignore reacts] at reached
      have terminal := reportedEnd_terminal ends
      rw [← reached, running] at terminal
      cases terminal
    · intro honoured
      refine ⟨?_, ?_⟩
      · intro target ends
        have reached : (lastState engine.timeoutNs cloid orderQty submittedNs
            (ops ++ [.process cloid input])).status = target := by
          rw [next]
          rcases reaction_of_honours running ends honoured with
            ⟨action, reacts⟩ | ⟨rfl, exchangeId, trades, reacts⟩
          · rw [(step.closed_eq reacts).1]
          · rw [(step.fetched_eq reacts).1]
            rfl
        refine ⟨reached, ?_⟩
        rw [isTracked_final engine orderQty submittedNs further, reached,
          reportedEnd_terminal ends]
        rfl
      · intro ignored
        rw [answer_process engine orderQty submittedNs lifetime running] at ignored
        rcases step.ignored_cases ignored with ⟨trade, reacts, seen⟩ | reacts
        · obtain ⟨nowNs, rfl⟩ := reaction_report reacts
          obtain ⟨applied, held, ledger⟩ :=
            ledger_of_run engine cloid orderQty submittedNs lifetime
          exact (ledger.seen _).mp seen
        · rcases ignore_cases running honoured reacts with
            ⟨exchangeId, nowNs, rfl, live⟩ | ⟨outcome, nowNs, rfl, noEnd⟩
          · have acknowledged :=
              acknowledged_of_live engine.timeoutNs cloid orderQty submittedNs ops
            rw [← (engineMachine_refines engine orderQty submittedNs lifetime).2] at acknowledged
            exact acknowledged live
          · exact noEnd

/-- An order that expires before its acknowledgement stays tracked as pending. -/
theorem not_heeds_expired :
    ¬Heeds (.withTimeoutNs 5) ⟨"a"⟩ 100 0 [] (.expired 1) := by
  intro heeds
  have reached := (heeds.final .expired rfl).1
  revert reached
  decide

/-- The same report is heeded once the order is acknowledged. -/
theorem heeds_iff_expired :
    Heeds (.withTimeoutNs 5) ⟨"a"⟩ 100 0 [.process ⟨"a"⟩ (.acknowledged 9 1)] (.expired 2) :=
  (heeds_iff (.withTimeoutNs 5) ⟨"a"⟩ 100 0 (by simp [EngineOp.Spares])
    (by decide : _ = some SmStatus.new) (.expired 2)).mpr (by decide)

end TradingConnectivity.Lifecycle
