import TradingConnectivity.Lifecycle.Confluence
import TradingConnectivity.Lifecycle.Dispatch

/-! # The engine and the gateway agree

Both keep a view of every order: the engine's machine decides what an event means, the gateway
applies the resulting actions. For an order tracked with the quantity it was enqueued with, whose
distinct fills are positive and within that quantity, every action is accepted and both views have
the same filled quantity and corresponding statuses after every run.
-/

namespace TradingConnectivity.Lifecycle

open Gateway (ClientOrderId OrderGateway OrderRequest OrderStatus PendingOrder Journal)

/-- The engine and the gateway of one client. -/
structure Client where
  engine : StateMachineEngine
  gateway : OrderGateway

inductive ClientError
  | engine (error : SmError)
  | gateway (error : Gateway.Error)
deriving DecidableEq, Repr

/-- Make one call of the engine and dispatch the actions it returns at a given time. -/
def clientMachine : Machine Client (EngineOp × Int64) (Except ClientError Unit) where
  step client call :=
    let (engine, answer) := client.engine.exec call.1
    match answer with
    | .error e => ({ client with engine }, .error (.engine e))
    | .ok actions =>
        let (result, gateway) := dispatchAll client.gateway call.2 actions
        (⟨engine, gateway⟩, result.mapError .gateway)

/-- The two views of an order agree. -/
structure Agree (sm : OrderSm) (gw : OrderGateway) (cloid : ClientOrderId)
    (order : PendingOrder) : Prop where
  holds : Holds gw cloid order
  qty_eq : order.request.qty = sm.totalQty
  filled_eq : order.filledQty = sm.filledQty
  status_eq : order.status = sm.status.gateway

namespace Agree

variable {sm after : OrderSm} {gw : OrderGateway} {cloid : ClientOrderId} {order : PendingOrder}
  {input : SmInput} {actions : List SmAction} {trades : List Trade} {emitted : List BufferedFill}
  {applied held : List Trade}

/-- After its burst of fills an acknowledged order has the same status in both views. -/
theorem acknowledgedState_gateway (positive : 0 < sm.totalQty) (zero : sm.filledQty = totalQty [])
    (within : Within sm.totalQty sm.bufferedFills) :
    (if sm.bufferedFills = [] then OrderStatus.new
      else if totalQty sm.bufferedFills ≥ sm.totalQty then .filled
      else .partiallyFilled) = sm.acknowledgedState.status.gateway := by
  have total : sm.filledQty + totalQty sm.bufferedFills = totalQty sm.bufferedFills := by
    simp [zero]
  simp only [OrderSm.acknowledgedState, total]
  by_cases empty : sm.bufferedFills = []
  · have short : ¬(0 : Int64) ≥ sm.totalQty := Int64.not_le.mpr positive
    simp only [empty, totalQty_nil, if_true, if_neg short, gt_iff_lt, Int64.lt_irrefl, if_false]
    rfl
  · have some : totalQty sm.bufferedFills > 0 := within.totalQty_pos empty
    simp only [if_neg empty, if_pos some]
    split <;> rfl

/-- One transition keeps the views in agreement, and the gateway accepts its actions. -/
theorem transition (agree : Agree sm gw cloid order)
    (ledger : Ledger sm trades emitted applied held) (running : sm.status.isTerminal = false)
    (positive : 0 < sm.totalQty) (payable : Payable sm.totalQty (trades ++ examined sm input))
    (noFetch : ∀ exchangeId fills, reaction sm.status input ≠ .fetch exchangeId fills)
    (step : Transition sm input after actions) (nowNs : Int64) :
    ∃ gw' order', dispatchAll gw nowNs (addressed cloid actions) = (.ok (), gw') ∧
      Agree after gw' cloid order' := by
  have live : order.status.isTerminal = false := by
    rw [agree.status_eq, SmStatus.gateway_isTerminal, running]
  obtain ⟨applied', held', ledger'⟩ := ledger.transition step
  have within := ledger'.within payable
  cases step with
  | acknowledged reacts =>
    rename_i exchangeId
    have waiting := reaction_acknowledge_waits reacts
    have none : emitted = [] := ledger.waiting waiting
    have zero : sm.filledQty = totalQty [] := by rw [ledger.filled, none]
    have pending : order.status = .pending := by
      rw [agree.status_eq]
      rcases waiting with status | status <;> rw [status] <;> rfl
    simp only [none, emittedFills_applyAck, emittedFills_fills, List.nil_append] at within
    obtain ⟨gw₁, acknowledged, holds⟩ := agree.holds.applyAck pending exchangeId nowNs
    obtain ⟨gw₂, order', flushed, holds', request, quantity, status⟩ := holds.applyFills rfl
      (agree.filled_eq.trans zero) (agree.qty_eq ▸ within.append_left) nowNs
    refine ⟨gw₂, order', ?_, holds', ?_, ?_, ?_⟩
    · rw [addressed, List.map_cons, dispatchAll, acknowledged]
      exact flushed
    · exact (congrArg OrderRequest.qty request).trans agree.qty_eq
    · rw [quantity, totalQty_append, ← zero]
      rfl
    · rw [status, agree.qty_eq, List.nil_append]
      exact acknowledgedState_gateway positive zero within.append_left
  | filled reacts unseen isLive =>
    rename_i trade
    rw [emittedFills_action] at within
    obtain ⟨gw', order', dispatched, holds, request, quantity, status⟩ :=
      agree.holds.applyFills live (agree.filled_eq.trans ledger.filled)
        (agree.qty_eq ▸ within.append_left) nowNs
    have total : totalQty (emitted ++ [trade.fill]) = sm.filledQty + trade.fillQty := by
      rw [totalQty_append, ← ledger.filled]
      simp [Trade.fill]
    refine ⟨gw', order', dispatched, holds, ?_, ?_, ?_⟩
    · exact (congrArg OrderRequest.qty request).trans agree.qty_eq
    · rw [quantity, total]
      rfl
    · rw [status, if_neg (List.cons_ne_nil _ _), total, agree.qty_eq]
      simp only [OrderSm.filledState]
      split <;> rfl
  | closed reacts =>
    obtain ⟨gw', dispatched, holds⟩ := agree.holds.applyClose live reacts nowNs
    exact ⟨gw', _, by simp only [addressed, List.map_cons, List.map_nil, dispatchAll, dispatched],
      holds, agree.qty_eq, agree.filled_eq, rfl⟩
  | fetched reacts => exact absurd reacts (noFetch _ _)
  | buffered reacts unseen waiting =>
    exact ⟨gw, order, rfl, agree.holds, agree.qty_eq, agree.filled_eq, agree.status_eq⟩
  | duplicate | retried | unhandled => exact ⟨gw, order, rfl, agree⟩

/-- The timer keeps the views in agreement: waiting is waiting in both. -/
theorem tick (agree : Agree sm gw cloid order) (timeoutNs nowNs : Int64) :
    Agree (sm.tick timeoutNs nowNs).1 gw cloid order := by
  rcases sm.tick_cases timeoutNs nowNs with same | ⟨pending, same⟩ <;> rw [same]
  · exact agree
  · exact ⟨agree.holds, agree.qty_eq, agree.filled_eq, by rw [agree.status_eq, pending]; rfl⟩

end Agree

/-- Without a consulted status check that found the order filled, what is examined is what
execution reports deliver. -/
theorem examined_of_noFetch {sm : OrderSm} {input : SmInput}
    (noFetch : ∀ exchangeId fills, reaction sm.status input ≠ .fetch exchangeId fills) :
    examined sm input = deliveredTrades [input] := by
  rw [examined_eq]
  split
  · rename_i trade reacts
    obtain ⟨nowNs, rfl⟩ := reaction_report reacts
    rfl
  · rename_i exchangeId trades reacts
    exact absurd reacts (noFetch exchangeId trades)
  · rename_i noReport _
    cases input with
    | fillReceived trade nowNs => exact absurd rfl (noReport trade)
    | _ => rfl

private theorem observeOrder_examined {sm : OrderSm} {event : OrderEvent} {actions : List SmAction}
    (running : sm.status.isTerminal = false)
    (noFilled : ∀ exchangeId fills now,
      event ≠ .process (.statusCheckResult (.filled exchangeId fills) now)) :
    observeOrder examined ⟨sm, event, actions⟩ = deliveredTrades event.input?.toList := by
  cases event with
  | process input =>
    rw [observeOrder_process running]
    refine examined_of_noFetch fun exchangeId fills reacts => ?_
    obtain ⟨now, rfl⟩ := reaction_fetch reacts
    exact noFilled exchangeId fills now rfl
  | tick nowNs => exact observeOrder_tick nowNs

/-! ## Calls of the client -/

/-- The engine and the gateway of a client follow one order. -/
structure Follows (client : Client) (cloid : ClientOrderId) (timeoutNs : Int64) (sm : OrderSm)
    (order : PendingOrder) : Prop where
  tracks : Tracks cloid timeoutNs client.engine sm
  agree : Agree sm client.gateway cloid order

/-- A call that is about this order or the timer. -/
def Concerns (cloid : ClientOrderId) : EngineOp → Prop
  | .process other _ => other = cloid
  | _ => True

/-- The gateway accepted every action of a call. -/
def Accepted (result : Except ClientError Unit) : Prop :=
  ∀ error, result ≠ .error (.gateway error)

section call

variable {client : Client} {op : EngineOp} (nowNs : Int64)

/-- The engine of a client moves on its own. -/
theorem clientMachine_engine :
    (clientMachine.next client (op, nowNs)).engine = engineMachine.next client.engine op := by
  simp only [Machine.next, clientMachine, engineMachine]
  split <;> rfl

theorem clientMachine_ok {actions : List (ClientOrderId × SmAction)}
    (answered : engineMachine.answer client.engine op = .ok actions) :
    (clientMachine.next client (op, nowNs)).gateway =
        (dispatchAll client.gateway nowNs actions).2 ∧
      clientMachine.answer client (op, nowNs) =
        (dispatchAll client.gateway nowNs actions).1.mapError .gateway := by
  simp only [Machine.answer, engineMachine] at answered
  simp only [Machine.next, Machine.answer, clientMachine, answered, and_self]

private theorem clientMachine_error {error : SmError}
    (answered : engineMachine.answer client.engine op = .error error) :
    (clientMachine.next client (op, nowNs)).gateway = client.gateway ∧
      clientMachine.answer client (op, nowNs) = .error (.engine error) := by
  simp only [Machine.answer, engineMachine] at answered
  simp only [Machine.next, Machine.answer, clientMachine, answered, and_self]

/-- A call whose actions are no business of the gateway. -/
theorem clientMachine_quiet {actions : List (ClientOrderId × SmAction)}
    (answered : engineMachine.answer client.engine op = .ok actions)
    (quiet : dispatchAll client.gateway nowNs actions = (.ok (), client.gateway)) :
    (clientMachine.next client (op, nowNs)).gateway = client.gateway ∧
      Accepted (clientMachine.answer client (op, nowNs)) := by
  obtain ⟨gateway, answer⟩ := clientMachine_ok nowNs answered
  rw [gateway, answer, quiet]
  exact ⟨rfl, by rintro error ⟨⟩⟩

end call

namespace Follows

variable {client : Client} {cloid : ClientOrderId} {timeoutNs : Int64} {sm : OrderSm}
  {order : PendingOrder} {trades : List Trade} {emitted : List BufferedFill}
  {applied held : List Trade}

/-- Calls the order cannot see leave both views alone. -/
theorem idle (follows : Follows client cloid timeoutNs sm order) {op : EngineOp} (nowNs : Int64)
    (spares : op.Spares cloid) (unseen : eventFor cloid op = none) :
    Follows (clientMachine.next client (op, nowNs)) cloid timeoutNs sm order ∧
      (Concerns cloid op → Accepted (clientMachine.answer client (op, nowNs))) := by
  have tracks := (follows.tracks.idle spares unseen).1
  rw [← clientMachine_engine nowNs] at tracks
  have agree := follows.agree
  have quiet {actions : List (ClientOrderId × SmAction)}
      (answered : engineMachine.answer client.engine op = .ok actions)
      (quiet : dispatchAll client.gateway nowNs actions = (.ok (), client.gateway)) :
      Follows (clientMachine.next client (op, nowNs)) cloid timeoutNs sm order ∧
        (Concerns cloid op → Accepted (clientMachine.answer client (op, nowNs))) := by
    obtain ⟨gateway, accepted⟩ := clientMachine_quiet nowNs answered quiet
    exact ⟨⟨tracks, gateway ▸ agree⟩, fun _ => accepted⟩
  cases op with
  | track other totalQty submittedNs => exact quiet rfl rfl
  | untrack other => exact quiet rfl rfl
  | process other input =>
    have different := ne_of_unseen unseen
    refine ⟨⟨tracks, ?_⟩, fun concerns => absurd concerns different⟩
    cases answered : engineMachine.answer client.engine (.process other input) with
    | error error =>
      rw [(clientMachine_error nowNs answered).1]
      exact agree
    | ok actions =>
      have others : ∀ entry ∈ actions, entry.1 ≠ cloid := by
        intro entry member
        rw [answer_process_key answered entry member]
        exact different
      rw [(clientMachine_ok nowNs answered).1]
      exact ⟨agree.holds.dispatchAll_other others nowNs, agree.qty_eq, agree.filled_eq,
        agree.status_eq⟩
  | tick nowNs => cases unseen

/-- Calls the order can see keep its two views in agreement. -/
theorem move (follows : Follows client cloid timeoutNs sm order)
    (ledger : Ledger sm trades emitted applied held) (positive : 0 < sm.totalQty)
    {op : EngineOp} {event : OrderEvent} (nowNs : Int64) (seen : eventFor cloid op = some event)
    (payable : sm.status.isTerminal = false →
      Payable sm.totalQty (trades ++ deliveredTrades event.input?.toList))
    (noFilled : ∀ exchangeId fills now,
      event ≠ .process (.statusCheckResult (.filled exchangeId fills) now)) :
    ∃ order', Follows (clientMachine.next client (op, nowNs)) cloid timeoutNs
        ((orderMachine timeoutNs).next sm event) order' ∧
      Accepted (clientMachine.answer client (op, nowNs)) := by
  have moved := (follows.tracks.move seen).1
  rw [← clientMachine_engine nowNs] at moved
  obtain ⟨tracks, agree⟩ := follows
  rcases eventFor_eq_some seen with ⟨input, rfl, rfl⟩ | ⟨now, rfl, rfl⟩
  · have stored := tracks.stored
    cases running : sm.status.isTerminal with
    | true =>
      rw [running, if_pos rfl] at stored
      have answered : engineMachine.answer client.engine (.process cloid input) =
          .error (.orderNotTracked cloid.asStr) := by
        simp only [Machine.answer, engineMachine, StateMachineEngine.exec,
          client.engine.process_missing cloid stored input, Prod.map, Except.map]
      obtain ⟨gateway, answer⟩ := clientMachine_error nowNs answered
      have still : (orderMachine timeoutNs).next sm (.process input) = sm :=
        congrArg Prod.fst (orderMachine_ended timeoutNs running _)
      refine ⟨order, ⟨moved, ?_⟩, ?_⟩
      · rw [gateway, still]
        exact agree
      · rw [answer]
        rintro error ⟨⟩
    | false =>
      have answered : engineMachine.answer client.engine (.process cloid input) =
          .ok (addressed cloid (sm.processInput input).2) := tracks.answer_running running input
      have next : (orderMachine timeoutNs).next sm (.process input) =
          (sm.processInput input).1 := congrArg Prod.fst (orderMachine_process timeoutNs running _)
      have noFetch : ∀ exchangeId fills,
          reaction sm.status input ≠ .fetch exchangeId fills := by
        intro exchangeId fills reacts
        obtain ⟨now, rfl⟩ := reaction_fetch reacts
        exact noFilled exchangeId fills now rfl
      have within : Payable sm.totalQty (trades ++ examined sm input) := by
        rw [examined_of_noFetch noFetch]
        exact payable running
      obtain ⟨gw', order', dispatched, after⟩ := agree.transition ledger running positive within
        noFetch (OrderSm.processInput_transition running input) nowNs
      obtain ⟨gateway, answer⟩ := clientMachine_ok nowNs answered
      refine ⟨order', ⟨moved, ?_⟩, ?_⟩
      · rw [gateway, next, dispatched]
        exact after
      · rw [answer, dispatched]
        rintro error ⟨⟩
  · have answered : engineMachine.answer client.engine (.tick now) =
        .ok (client.engine.tick now).2 := rfl
    obtain ⟨gateway, accepted⟩ := clientMachine_quiet nowNs answered
      (dispatchAll_checks client.gateway nowNs (client.engine.tick_checks now))
    refine ⟨order, ⟨moved, ?_⟩, accepted⟩
    rw [gateway, Machine.next]
    cases running : sm.status.isTerminal with
    | true => rwa [orderMachine_ended timeoutNs running]
    | false =>
      rw [orderMachine_tick timeoutNs running]
      exact agree.tick timeoutNs now

end Follows

/-! ## Runs of the client -/

/-- Every run of a client keeps the views of an order in agreement, and the gateway accepts every
action for it, as long as the distinct trades delivered stay payable. -/
theorem Follows.run {client : Client} {cloid : ClientOrderId} {timeoutNs : Int64} {sm : OrderSm}
    {order : PendingOrder} {trades : List Trade} {emitted : List BufferedFill}
    {applied held : List Trade} (follows : Follows client cloid timeoutNs sm order)
    (ledger : Ledger sm trades emitted applied held) (positive : 0 < sm.totalQty)
    {calls : List (EngineOp × Int64)} (lifetime : ∀ op ∈ calls.map Prod.fst, op.Spares cloid)
    (payable : sm.status.isTerminal = false →
      Payable sm.totalQty (trades ++ deliveredTrades (inputsFor cloid (calls.map Prod.fst))))
    (noFilled : ∀ input ∈ inputsFor cloid (calls.map Prod.fst), ∀ exchangeId fills now,
      input ≠ .statusCheckResult (.filled exchangeId fills) now) :
    (∀ event ∈ clientMachine.history client calls,
        Concerns cloid event.input.1 → Accepted event.output) ∧
      ∃ order', Follows (clientMachine.final client calls) cloid timeoutNs
        ((orderMachine timeoutNs).final sm (eventsFor cloid (calls.map Prod.fst))) order' := by
  induction calls generalizing client sm order trades emitted applied held with
  | nil => exact ⟨by rintro event ⟨⟩, order, follows⟩
  | cons call rest ih =>
    obtain ⟨op, nowNs⟩ := call
    have now := lifetime op List.mem_cons_self
    have later : ∀ op ∈ rest.map Prod.fst, op.Spares cloid := fun op member =>
      lifetime op (List.mem_cons_of_mem _ member)
    rw [List.map_cons] at payable noFilled ⊢
    cases seen : eventFor cloid op with
    | none =>
      obtain ⟨same, accepted⟩ := follows.idle nowNs now seen
      rw [inputsFor_cons_none seen] at payable noFilled
      rw [eventsFor_cons_none seen]
      obtain ⟨outputs, order', final⟩ := ih same ledger positive later payable noFilled
      refine ⟨?_, order', final⟩
      rw [Machine.history_cons]
      exact List.forall_mem_cons.mpr ⟨accepted, outputs⟩
    | some event =>
      rw [inputsFor_cons_some seen] at payable noFilled
      rw [eventsFor_cons_some seen, Machine.final_cons]
      rw [deliveredTrades_append, ← List.append_assoc] at payable
      have noFetch : ∀ exchangeId fills now,
          event ≠ .process (.statusCheckResult (.filled exchangeId fills) now) := by
        rintro exchangeId fills now rfl
        exact noFilled _ (List.mem_append_left _ (by simp [OrderEvent.input?])) exchangeId fills
          now rfl
      obtain ⟨order', moved, accepted⟩ := follows.move ledger positive nowNs seen
        (fun running => (payable running).append_left) noFetch
      have moves := orderMachine_moves timeoutNs sm event
      obtain ⟨applied', held', ledger'⟩ := ledger.move moves
      have total := moves.constants.2.1
      obtain ⟨outputs, order'', final⟩ := ih moved ledger' (total ▸ positive) later
        (fun running' => by
          have running := moves.running_of_running running'
          rw [observeOrder_examined running noFetch, total]
          exact payable running)
        (fun input member => noFilled input (List.mem_append_right _ member))
      refine ⟨?_, order'', final⟩
      rw [Machine.history_cons]
      exact List.forall_mem_cons.mpr ⟨fun _ => accepted, outputs⟩

/-- The two views of an order after a run: the engine stores the last state of its machine while
it is not terminal, and the gateway has the same filled quantity and the corresponding status. -/
def ViewsAgree (client : Client) (cloid : ClientOrderId) (last : OrderSm) : Prop :=
  client.engine.orders[cloid]? = (if last.status.isTerminal then none else some last) ∧
    ∃ order, client.gateway.orders[cloid]? = some order ∧ order.filledQty = last.filledQty ∧
      order.status = last.status.gateway

/-- An order is enqueued in the gateway and tracked with the same quantity. Whatever the engine is
then told about it, short of a status check that found it filled, the gateway accepts every action
for it and the views agree after every step. -/
theorem views_agree (engine : StateMachineEngine) {gw : OrderGateway}
    (reliable : gw.journal.Reliable) {request : OrderRequest} (positive : 0 < request.qty)
    (nowNs submittedNs : Int64) {calls : List (EngineOp × Int64)}
    (lifetime : ∀ op ∈ calls.map Prod.fst, op.Spares gw.cloidGen.generate.1)
    (payable : Payable request.qty
      (deliveredTrades (inputsFor gw.cloidGen.generate.1 (calls.map Prod.fst))))
    (noFilled : ∀ input ∈ inputsFor gw.cloidGen.generate.1 (calls.map Prod.fst),
      ∀ exchangeId fills now, input ≠ .statusCheckResult (.filled exchangeId fills) now) :
    let cloid := gw.cloidGen.generate.1
    let start : Client :=
      ⟨engine.track cloid request.qty submittedNs, (gw.enqueue request nowNs).2⟩
    (gw.enqueue request nowNs).1 = .ok cloid ∧
      (∀ event ∈ clientMachine.history start calls,
        Concerns cloid event.input.1 → Accepted event.output) ∧
      ∀ done rest, calls = done ++ rest →
        ViewsAgree (clientMachine.final start done) cloid
          (lastState engine.timeoutNs cloid request.qty submittedNs (done.map Prod.fst)) := by
  intro cloid start
  obtain ⟨issued, holds⟩ := Holds.enqueue reliable request nowNs
  have follows : Follows start cloid engine.timeoutNs (.new cloid request.qty submittedNs)
      (OrderGateway.pendingOrder cloid request nowNs) :=
    ⟨tracks_track engine request.qty submittedNs, holds, rfl, rfl, rfl⟩
  have ledger := Ledger.start cloid request.qty submittedNs
  refine ⟨issued, (follows.run ledger positive lifetime (fun _ => payable) noFilled).1, ?_⟩
  rintro done rest rfl
  rw [List.map_append] at lifetime payable noFilled
  rw [inputsFor_append] at payable noFilled
  rw [deliveredTrades_append] at payable
  obtain ⟨_, order, final⟩ := follows.run ledger positive
    (fun op member => lifetime op (List.mem_append_left _ member)) (fun _ => payable.append_left)
    (fun input member => noFilled input (List.mem_append_left _ member))
  exact ⟨final.tracks.stored, order, final.agree.holds.found, final.agree.filled_eq,
    final.agree.status_eq⟩

/-- A fill before the acknowledgement, one after it and a cancel. -/
theorem views_agree_cancelled :
    let cloid : ClientOrderId := ⟨"cc-0007-0000000000000000"⟩
    let request : OrderRequest := ⟨"BTCUSDT", .buy, .limit, 10, some 100, .goodTillCancel⟩
    let calls : List (EngineOp × Int64) :=
      [(.process cloid (.fillReceived ⟨1, 4, 100⟩ 1), 1), (.process cloid (.acknowledged 9 2), 2),
        (.process cloid (.fillReceived ⟨2, 3, 100⟩ 3), 3), (.process cloid (.cancelConfirmed 4), 4)]
    ViewsAgree
      (clientMachine.final
        ⟨(StateMachineEngine.withTimeoutNs 5).track cloid 10 0,
          ((OrderGateway.inMemory 7).enqueue request 0).2⟩ calls)
      cloid (lastState 5 cloid 10 0 (calls.map Prod.fst)) := by
  intro cloid request calls
  have reliable : (OrderGateway.inMemory 7).journal.Reliable := trivial
  have issued : (OrderGateway.inMemory 7).cloidGen.generate.1 = cloid := by decide
  have inputs : inputsFor cloid (calls.map Prod.fst) = [.fillReceived ⟨1, 4, 100⟩ 1,
      .acknowledged 9 2, .fillReceived ⟨2, 3, 100⟩ 3, .cancelConfirmed 4] := by decide
  have positive : 0 < request.qty := by decide
  have agree := @views_agree (.withTimeoutNs 5) (.inMemory 7) reliable request positive 0 0 calls
  rw [issued] at agree
  refine (agree ?_ ?_ ?_).2.2 calls [] rfl
  · simp [calls, EngineOp.Spares]
  · rw [inputs]
    exact ⟨by decide, by decide⟩
  · rw [inputs]
    simp

end TradingConnectivity.Lifecycle
