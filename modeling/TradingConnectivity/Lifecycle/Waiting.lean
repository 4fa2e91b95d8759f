import TradingConnectivity.Lifecycle.Agreement

/-! # Orders that wait

An order that is pending or unknown has never been anything else. Until then the gateway has heard
nothing about it, and what execution reports delivered is what the order holds in its buffer. An
input that closes the order leaves it at that; a status check that found it filled flushes the
buffer.
-/

namespace TradingConnectivity.Lifecycle

open Gateway (ClientOrderId OrderGateway PendingOrder)

/-- A step that leaves an order waiting does not concern the gateway. -/
structure StaysWaiting (sm : OrderSm) (input : Option SmInput) (after : OrderSm)
    (actions : List SmAction) (noted : List Trade) : Prop where
  waits : sm.status.waits = true
  status_eq : after.status.gateway = sm.status.gateway
  filled_eq : after.filledQty = sm.filledQty
  total_eq : after.totalQty = sm.totalQty
  silent : ∀ action ∈ actions, action = .ignored ∨ action = .scheduleStatusCheck
  noted_eq : noted = deliveredTrades input.toList

/-- A waiting order that goes on waiting has kept a fill, asked for a check or ignored an input. -/
theorem Transition.staysWaiting {sm after : OrderSm} {input : SmInput} {actions : List SmAction}
    (step : Transition sm input after actions) (waits : after.status.waits = true) :
    StaysWaiting sm (some input) after actions (examined sm input) := by
  have noted (quiet : ∀ exchangeId fills, reaction sm.status input ≠ .fetch exchangeId fills) :
      examined sm input = deliveredTrades [input] := examined_of_noFetch quiet
  cases step with
  | acknowledged reacts =>
    rcases sm.acknowledgedState_status with status | status | status <;>
      rw [status] at waits <;> cases waits
  | duplicate reacts seen =>
    exact ⟨waits, rfl, rfl, rfl, by simp, noted (by simp [reacts])⟩
  | buffered reacts unseen waiting =>
    exact ⟨waits, rfl, rfl, rfl, by simp, noted (by simp [reacts])⟩
  | filled reacts unseen live =>
    rename_i trade
    rcases sm.filledState_status trade with status | status <;> rw [status] at waits <;> cases waits
  | fetched reacts => cases waits
  | closed reacts =>
    rcases reaction_close_cases reacts with ⟨rfl, -⟩ | ⟨rfl, -⟩ | ⟨rfl, -⟩ <;> cases waits
  | retried reacts => exact ⟨waits, rfl, rfl, rfl, by simp, noted (by simp [reacts])⟩
  | unhandled reacts => exact ⟨waits, rfl, rfl, rfl, by simp, noted (by simp [reacts])⟩

/-- An event that leaves an order waiting found it waiting. -/
theorem Moves.staysWaiting {sm after : OrderSm} {event : OrderEvent} {actions : List SmAction}
    (moves : Moves sm event after actions) (waits : after.status.waits = true) :
    StaysWaiting sm event.input? after actions (observeOrder examined ⟨sm, event, actions⟩) := by
  cases moves with
  | ended terminal =>
    rcases SmStatus.waits_iff.mp waits with status | status <;> rw [status] at terminal <;>
      cases terminal
  | processed running step =>
    rw [observeOrder_process running]
    exact step.staysWaiting waits
  | waited running =>
    rw [observeOrder_tick]
    exact ⟨waits, rfl, rfl, rfl, by simp, rfl⟩
  | late pending =>
    rw [observeOrder_tick]
    exact ⟨by rw [pending]; rfl, by rw [pending]; rfl, rfl, rfl, by simp, rfl⟩

private theorem waits_of_final {timeoutNs : Int64} {sm : OrderSm} {events : List OrderEvent}
    (waits : ((orderMachine timeoutNs).final sm events).status.waits = true) :
    sm.status.waits = true := by
  induction events generalizing sm with
  | nil => exact waits
  | cons event rest ih =>
    exact ((orderMachine_moves timeoutNs sm event).staysWaiting (ih waits)).waits

private theorem SmStatus.running_of_waits {status : SmStatus} (waits : status.waits = true) :
    status.isTerminal = false := by
  cases status <;> first | rfl | cases waits

/-- Actions that are no calls leave the gateway alone. -/
private theorem dispatchAll_silent (gw : OrderGateway) (cloid : ClientOrderId) (nowNs : Int64)
    {actions : List SmAction}
    (silent : ∀ action ∈ actions, action = .ignored ∨ action = .scheduleStatusCheck) :
    dispatchAll gw nowNs (addressed cloid actions) = (.ok (), gw) := by
  induction actions with
  | nil => rfl
  | cons action rest ih =>
    have later := ih fun other member => silent other (List.mem_cons_of_mem _ member)
    rcases silent action List.mem_cons_self with rfl | rfl <;> exact later

namespace Follows

variable {client : Client} {cloid : ClientOrderId} {timeoutNs : Int64} {sm : OrderSm}
  {order : PendingOrder} {trades : List Trade} {emitted : List BufferedFill}
  {applied held : List Trade}

/-- What a client does with an input of an order that is not terminal. -/
theorem process (follows : Follows client cloid timeoutNs sm order)
    (running : sm.status.isTerminal = false) (input : SmInput) (nowNs : Int64) :
    (clientMachine.next client (.process cloid input, nowNs)).gateway =
        (dispatchAll client.gateway nowNs (addressed cloid (sm.processInput input).2)).2 ∧
      Tracks cloid timeoutNs (clientMachine.next client (.process cloid input, nowNs)).engine
        (sm.processInput input).1 := by
  have answered := follows.tracks.answer_running running input
  have seen : eventFor cloid (.process cloid input) = some (.process input) := if_pos rfl
  have next : (orderMachine timeoutNs).next sm (.process input) = (sm.processInput input).1 :=
    congrArg Prod.fst (orderMachine_process timeoutNs running input)
  have moved := (follows.tracks.move seen).1
  rw [← clientMachine_engine nowNs, next] at moved
  exact ⟨(clientMachine_ok nowNs answered).1, moved⟩

/-- A call after which the order still waits leaves the gateway's view alone. -/
theorem wait (follows : Follows client cloid timeoutNs sm order) {op : EngineOp}
    {event : OrderEvent} (nowNs : Int64) (seen : eventFor cloid op = some event)
    (waits : ((orderMachine timeoutNs).next sm event).status.waits = true) :
    Follows (clientMachine.next client (op, nowNs)) cloid timeoutNs
      ((orderMachine timeoutNs).next sm event) order := by
  have stays := (orderMachine_moves timeoutNs sm event).staysWaiting waits
  have running := SmStatus.running_of_waits stays.waits
  have moved := (follows.tracks.move seen).1
  rw [← clientMachine_engine nowNs] at moved
  have agree : (clientMachine.next client (op, nowNs)).gateway = client.gateway →
      Agree ((orderMachine timeoutNs).next sm event)
        (clientMachine.next client (op, nowNs)).gateway cloid order := by
    intro same
    rw [same]
    exact ⟨follows.agree.holds, follows.agree.qty_eq.trans stays.total_eq.symm,
      follows.agree.filled_eq.trans stays.filled_eq.symm,
      follows.agree.status_eq.trans stays.status_eq.symm⟩
  refine ⟨moved, agree ?_⟩
  rcases eventFor_eq_some seen with ⟨input, rfl, rfl⟩ | ⟨now, rfl, rfl⟩
  · have silent := stays.silent
    rw [Machine.answer, orderMachine_process timeoutNs running] at silent
    rw [(follows.process running input nowNs).1,
      dispatchAll_silent client.gateway cloid nowNs silent]
  · have answered : engineMachine.answer client.engine (.tick now) =
        .ok (client.engine.tick now).2 := rfl
    exact (clientMachine_quiet nowNs answered
      (dispatchAll_checks client.gateway nowNs (client.engine.tick_checks now))).1

/-- After a run that leaves the order waiting, the gateway's view is what it was, and the ledger
holds what execution reports delivered. -/
theorem run_waiting (follows : Follows client cloid timeoutNs sm order)
    (ledger : Ledger sm trades emitted applied held) {calls : List (EngineOp × Int64)}
    (lifetime : ∀ op ∈ calls.map Prod.fst, op.Spares cloid)
    (waits : ((orderMachine timeoutNs).final sm
      (eventsFor cloid (calls.map Prod.fst))).status.waits = true) :
    Follows (clientMachine.final client calls) cloid timeoutNs
        ((orderMachine timeoutNs).final sm (eventsFor cloid (calls.map Prod.fst))) order ∧
      ∃ emitted' applied' held',
        Ledger ((orderMachine timeoutNs).final sm (eventsFor cloid (calls.map Prod.fst)))
          (trades ++ deliveredTrades (inputsFor cloid (calls.map Prod.fst)))
          emitted' applied' held' := by
  induction calls generalizing client sm trades emitted applied held with
  | nil =>
    refine ⟨follows, emitted, applied, held, ?_⟩
    change Ledger sm (trades ++ []) emitted applied held
    rwa [List.append_nil]
  | cons call rest ih =>
    obtain ⟨op, nowNs⟩ := call
    have now := lifetime op List.mem_cons_self
    have later : ∀ op ∈ rest.map Prod.fst, op.Spares cloid := fun op member =>
      lifetime op (List.mem_cons_of_mem _ member)
    rw [List.map_cons] at waits ⊢
    cases seen : eventFor cloid op with
    | none =>
      rw [inputsFor_cons_none seen, eventsFor_cons_none seen]
      rw [eventsFor_cons_none seen] at waits
      exact ih (follows.idle nowNs now seen).1 ledger later waits
    | some event =>
      rw [eventsFor_cons_some seen, Machine.final_cons] at waits
      have moves := orderMachine_moves timeoutNs sm event
      have stays := moves.staysWaiting (waits_of_final waits)
      obtain ⟨applied', held', ledger'⟩ := ledger.move moves
      rw [stays.noted_eq] at ledger'
      have final := ih (follows.wait nowNs seen (waits_of_final waits)) ledger' later waits
      rw [List.append_assoc, ← deliveredTrades_append, ← inputsFor_cons_some seen] at final
      rw [eventsFor_cons_some seen, Machine.final_cons, Machine.final_cons]
      exact final

/-! ## The end of the wait -/

/-- An input that closes the order leaves the gateway with the quantity filled so far. -/
theorem closed (follows : Follows client cloid timeoutNs sm order)
    (running : sm.status.isTerminal = false) {input : SmInput} {target : SmStatus}
    {action : SmAction} (reacts : reaction sm.status input = .close target action)
    (nowNs : Int64) :
    let after := clientMachine.next client (.process cloid input, nowNs)
    after.engine.isTracked cloid = false ∧
      ∃ order', after.gateway.orders[cloid]? = some order' ∧
        order'.filledQty = order.filledQty := by
  intro after
  obtain ⟨gateway, tracks⟩ := follows.process running input nowNs
  obtain ⟨state, actions⟩ := (sm.processInput_transition running input).closed_eq reacts
  rw [state] at tracks
  have live : order.status.isTerminal = false := by
    rw [follows.agree.status_eq, SmStatus.gateway_isTerminal, running]
  obtain ⟨gw', dispatched, holds⟩ := follows.agree.holds.applyClose live reacts nowNs
  constructor
  · rw [tracks.isTracked, reaction_close_terminal reacts]
    rfl
  · refine ⟨{ order with status := target.gateway, lastUpdatedNs := nowNs }, ?_, rfl⟩
    rw [gateway, actions]
    simp only [addressed, List.map_cons, List.map_nil, dispatchAll, dispatched]
    exact holds.found

/-- A status check that found the order filled brings the gateway every trade heard of, once. -/
theorem fetched (follows : Follows client cloid timeoutNs sm order)
    (ledger : Ledger sm trades emitted applied held) (unknown : sm.status = .unknownStatus)
    {fills : List Trade} (payable : Payable sm.totalQty (trades ++ fills)) (exchangeId : UInt64)
    (checkNs nowNs : Int64) :
    let heard := ((trades ++ fills).firstBy Trade.tradeId).map Trade.fill
    let after := clientMachine.next client
      (.process cloid (.statusCheckResult (.filled exchangeId fills) checkNs), nowNs)
    after.engine.isTracked cloid = false ∧
      ∃ order', after.gateway.orders[cloid]? = some order' ∧ order'.filledQty = totalQty heard ∧
        order'.status = if heard = [] then .new
          else if totalQty heard ≥ sm.totalQty then .filled
          else .partiallyFilled := by
  intro heard after
  have reacts : reaction sm.status (.statusCheckResult (.filled exchangeId fills) checkNs) =
      .fetch exchangeId fills := by
    rw [unknown]
    rfl
  have running : sm.status.isTerminal = false := by
    rw [unknown]
    rfl
  obtain ⟨gateway, tracks⟩ := follows.process running
    (.statusCheckResult (.filled exchangeId fills) checkNs) nowNs
  have step := sm.processInput_transition running
    (.statusCheckResult (.filled exchangeId fills) checkNs)
  obtain ⟨applied', held', ledger'⟩ := ledger.transition step
  obtain ⟨state, actions⟩ := step.fetched_eq reacts
  have none := ledger.waiting (.inr unknown)
  rw [examined_eq, reacts, actions, state, emittedFills_applyAck, emittedFills_fills, none,
    List.nil_append] at ledger'
  rw [state] at tracks
  -- the flush empties the buffer, so every trade heard of is applied
  have empty : held' = [] := List.map_eq_nil_iff.mp ledger'.held_eq
  have perm : ((sm.freshTrades fills).map Trade.fill ++ sm.bufferedFills).Perm heard := by
    rw [← ledger'.applied_eq]
    have once := ledger'.once
    rw [empty, List.append_nil] at once
    exact once.map _
  have within : Within order.request.qty
      ([] ++ ((sm.freshTrades fills).map Trade.fill ++ sm.bufferedFills)) := by
    rw [follows.agree.qty_eq]
    exact Within.perm payable perm.symm
  have pending : order.status = .pending := by
    rw [follows.agree.status_eq, unknown]
    rfl
  have zero : order.filledQty = totalQty [] := by
    rw [follows.agree.filled_eq, ledger.filled, none]
  obtain ⟨gw₁, acknowledged, holds⟩ := follows.agree.holds.applyAck pending exchangeId nowNs
  obtain ⟨gw₂, order', flushed, holds', -, quantity, status⟩ :=
    holds.applyFills rfl zero within nowNs
  constructor
  · rw [tracks.isTracked]
    rfl
  · refine ⟨order', ?_, ?_, ?_⟩
    · rw [gateway, actions, addressed, List.map_cons, dispatchAll, acknowledged]
      change (dispatchAll gw₁ nowNs (addressed cloid _)).2.orders[cloid]? = _
      rw [flushed]
      exact holds'.found
    · rw [quantity, List.nil_append, totalQty_perm perm]
    · have empties :
          (sm.freshTrades fills).map Trade.fill ++ sm.bufferedFills = [] ↔ heard = [] := by
        rw [← List.length_eq_zero_iff, perm.length_eq, List.length_eq_zero_iff]
      simp only [status, List.nil_append, totalQty_perm perm, follows.agree.qty_eq, empties]

end Follows

end TradingConnectivity.Lifecycle
