import TradingConnectivity.Lifecycle.Quantities

/-! # Acknowledgements and fills commute

Acknowledgements, execution reports and the timer race on different channels. Whatever their order,
an order that only meets these inputs settles on the trades delivered to it: it is acknowledged
once, applies each distinct trade once, and its last state is a function of the set of trades
(`Race.lastState_eq`). Two delivery orders of the same inputs therefore end alike.
-/

namespace TradingConnectivity.Lifecycle

open Gateway (ClientOrderId)

/-- The actions that call a method of the gateway. -/
def SmAction.isCall : SmAction → Bool
  | .scheduleStatusCheck | .ignored => false
  | _ => true

def callsOf (actions : List SmAction) : List SmAction := actions.filter SmAction.isCall

@[simp] theorem callsOf_append (first second : List SmAction) :
    callsOf (first ++ second) = callsOf first ++ callsOf second := List.filter_append ..

@[simp] theorem callsOf_nil : callsOf [] = [] := rfl

@[simp] theorem callsOf_ignored : callsOf [.ignored] = [] := rfl

@[simp] theorem callsOf_scheduleStatusCheck : callsOf [.scheduleStatusCheck] = [] := rfl

@[simp] theorem callsOf_applyAck (exchangeId : UInt64) (rest : List SmAction) :
    callsOf (.applyAck exchangeId :: rest) = .applyAck exchangeId :: callsOf rest := rfl

@[simp] theorem callsOf_fills (fills : List BufferedFill) :
    callsOf (fills.map BufferedFill.action) = fills.map BufferedFill.action := by
  refine List.filter_eq_self.mpr fun action member => ?_
  obtain ⟨f, _, rfl⟩ := List.mem_map.mp member
  rfl

/-- The input of an event, if it is not a tick. -/
def OrderEvent.input? : OrderEvent → Option SmInput
  | .process input => some input
  | .tick _ => none

private theorem filterMap_input_singleton (event : OrderEvent) :
    [event].filterMap OrderEvent.input? = event.input?.toList := by
  cases event <;> rfl

/-- The inputs delivered for an order. -/
def inputsFor (cloid : ClientOrderId) (ops : List EngineOp) : List SmInput :=
  (eventsFor cloid ops).filterMap OrderEvent.input?

theorem inputsFor_append (cloid : ClientOrderId) (first second : List EngineOp) :
    inputsFor cloid (first ++ second) = inputsFor cloid first ++ inputsFor cloid second := by
  simp only [inputsFor, eventsFor, List.filterMap_append]

theorem inputsFor_cons_none {cloid : ClientOrderId} {op : EngineOp}
    (unseen : eventFor cloid op = none) (rest : List EngineOp) :
    inputsFor cloid (op :: rest) = inputsFor cloid rest := by
  rw [inputsFor, eventsFor_cons_none unseen, inputsFor]

theorem inputsFor_cons_some {cloid : ClientOrderId} {op : EngineOp} {event : OrderEvent}
    (seen : eventFor cloid op = some event) (rest : List EngineOp) :
    inputsFor cloid (op :: rest) = event.input?.toList ++ inputsFor cloid rest := by
  rw [inputsFor, eventsFor_cons_some seen, ← List.singleton_append, List.filterMap_append,
    filterMap_input_singleton, inputsFor]

/-- The trades of the execution reports among some inputs. -/
def deliveredTrades (inputs : List SmInput) : List Trade :=
  inputs.flatMap fun input =>
    match input with
    | .fillReceived trade _ => [trade]
    | _ => []

def SmInput.isAck : SmInput → Bool
  | .acknowledged _ _ => true
  | _ => false

/-- The inputs that race: acknowledgements and execution reports. -/
def SmInput.Races : SmInput → Prop
  | .acknowledged _ _ => True
  | .fillReceived _ _ => True
  | _ => False

def SmStatus.waits : SmStatus → Bool
  | .pending | .unknownStatus => true
  | _ => false

theorem SmStatus.waits_iff {status : SmStatus} :
    status.waits = true ↔ status = .pending ∨ status = .unknownStatus := by
  cases status <;> simp [waits]

/-- The status of an acknowledged order with a given filled quantity. -/
def settledStatus (orderQty filledQty : Int64) : SmStatus :=
  if filledQty ≥ orderQty then .filled
  else if filledQty > 0 then .partiallyFilled
  else .new

theorem deliveredTrades_append (first second : List SmInput) :
    deliveredTrades (first ++ second) = deliveredTrades first ++ deliveredTrades second :=
  List.flatMap_append

private theorem examined_of_races {input : SmInput} (races : input.Races) (sm : OrderSm) :
    examined sm input = deliveredTrades [input] := by
  cases input <;> first | rfl | cases races

/-- An execution report is reported in every status; an acknowledgement is one for a waiting order
and ignored by a live one. -/
theorem reaction_of_races (status : SmStatus) {input : SmInput} (races : input.Races) :
    (input.isAck = false ∧ ∃ trade, reaction status input = .report trade) ∨
      (status.waits = true ∧ ∃ exchangeId, reaction status input = .acknowledge exchangeId) ∨
      (status.waits = false ∧ reaction status input = .ignore) := by
  cases input with
  | acknowledged exchangeId nowNs => cases status <;> simp [SmStatus.waits, reaction]
  | fillReceived trade nowNs => exact .inl ⟨rfl, trade, rfl⟩
  | _ => cases races

/-- What a race among the inputs so far has made of an order. -/
structure Race (orderQty : Int64) (sm : OrderSm) (inputs : List SmInput)
    (examined : List Trade) (actions : List SmAction) : Prop where
  total_eq : sm.totalQty = orderQty
  late : ∃ late, deliveredTrades inputs = examined ++ late ∧
    (sm.status.isTerminal = false → late = [])
  waiting : sm.status.waits → inputs.any SmInput.isAck = false ∧ callsOf actions = []
  settled : sm.status.waits = false → sm.bufferedFills = [] ∧
    sm.status = settledStatus orderQty sm.filledQty ∧
    ∃ exchangeId, callsOf actions =
      .applyAck exchangeId :: (emittedFills actions).map BufferedFill.action

namespace Race

variable {orderQty : Int64} {sm after : OrderSm} {inputs : List SmInput} {trades : List Trade}
  {emitted : List BufferedFill} {applied held : List Trade} {past actions : List SmAction}

theorem start (cloid : ClientOrderId) (orderQty submittedNs : Int64) :
    Race orderQty (.new cloid orderQty submittedNs) [] [] [] where
  total_eq := rfl
  late := ⟨[], rfl, fun _ => rfl⟩
  waiting := fun _ => ⟨rfl, rfl⟩
  settled := by rintro ⟨⟩

/-- As long as the order runs, everything delivered has been examined. -/
private theorem delivered_eq (race : Race orderQty sm inputs trades past)
    (running : sm.status.isTerminal = false) : deliveredTrades inputs = trades := by
  obtain ⟨late, split, none⟩ := race.late
  rw [split, none running, List.append_nil]

/-- What the first acknowledgement of a waiting order settles. -/
theorem acknowledged (race : Race orderQty sm inputs trades past)
    (ledger : Ledger sm trades (emittedFills past) applied held) (waits : sm.status.waits = true)
    (exchangeId : UInt64) {inputs' : List SmInput} {trades' : List Trade}
    (delivered : deliveredTrades inputs' = trades') :
    Race orderQty sm.acknowledgedState inputs' trades'
      (past ++ .applyAck exchangeId :: sm.bufferedFills.map BufferedFill.action) where
  total_eq := race.total_eq
  late := ⟨[], by rw [delivered, List.append_nil], fun _ => rfl⟩
  waiting := by
    intro still
    rcases sm.acknowledgedState_status with status | status | status <;> rw [status] at still <;>
      cases still
  settled := by
    intro _
    have none : emittedFills past = [] := ledger.waiting (SmStatus.waits_iff.mp waits)
    refine ⟨rfl, ?_, exchangeId, ?_⟩
    · rw [← race.total_eq]
      rfl
    · rw [callsOf_append, (race.waiting waits).2, emittedFills_append, none, emittedFills_applyAck,
        emittedFills_fills, callsOf_applyAck, callsOf_fills, List.nil_append, List.nil_append]

/-- An input that is ignored. -/
theorem ignored (race : Race orderQty sm inputs trades past) {inputs' : List SmInput}
    {trades' : List Trade} (delivered : deliveredTrades inputs' = trades')
    (noAck : sm.status.waits → inputs'.any SmInput.isAck = inputs.any SmInput.isAck) :
    Race orderQty sm inputs' trades' (past ++ [.ignored]) where
  total_eq := race.total_eq
  late := ⟨[], by rw [delivered, List.append_nil], fun _ => rfl⟩
  waiting := by
    intro waits
    rw [noAck waits, callsOf_append, callsOf_ignored, List.append_nil]
    exact race.waiting waits
  settled := by
    simpa only [callsOf_append, callsOf_ignored, emittedFills_append, emittedFills_ignored,
      List.append_nil] using race.settled

theorem transition {input : SmInput} (race : Race orderQty sm inputs trades past)
    (ledger : Ledger sm trades (emittedFills past) applied held)
    (running : sm.status.isTerminal = false) (races : input.Races)
    (payable : Payable orderQty (deliveredTrades (inputs ++ [input])))
    (step : Transition sm input after actions) :
    Race orderQty after (inputs ++ [input]) (trades ++ examined sm input) (past ++ actions) := by
  have delivered : deliveredTrades (inputs ++ [input]) = trades ++ examined sm input := by
    rw [deliveredTrades_append, race.delivered_eq running, examined_of_races races]
  have noAck (report : input.isAck = false) :
      (inputs ++ [input]).any SmInput.isAck = inputs.any SmInput.isAck := by
    simp [report]
  rcases reaction_of_races sm.status races with
    ⟨report, trade, reacts⟩ | ⟨waits, exchangeId, reacts⟩ | ⟨settled, reacts⟩
  · obtain ⟨applied', held', ledger'⟩ := ledger.transition step
    rw [delivered] at payable
    have within := (ledger'.within payable).append_left
    cases step with
    | duplicate _ seen => exact race.ignored delivered fun _ => noAck report
    | buffered _ unseen waiting =>
      refine ⟨race.total_eq, ⟨[], by rw [delivered, List.append_nil], fun _ => rfl⟩,
        fun waits => ?_, fun settled => ?_⟩
      · rw [noAck report, List.append_nil]
        exact race.waiting waits
      · have waits := SmStatus.waits_iff.mpr waiting
        exact absurd (waits.symm.trans settled) (by decide)
    | filled other unseen live =>
      rename_i fresh
      have settled : sm.status.waits = false := by
        revert live
        cases sm.status <;> decide
      obtain ⟨empty, status, exchangeId, calls⟩ := race.settled settled
      refine ⟨race.total_eq, ⟨[], by rw [delivered, List.append_nil], fun _ => rfl⟩,
        fun waits => ?_, fun _ => ⟨empty, ?_, exchangeId, ?_⟩⟩
      · rcases sm.filledState_status fresh with status | status <;> rw [status] at waits <;>
          cases waits
      · have positive : (sm.filledState fresh).filledQty > 0 := by
          rw [ledger'.filled]
          exact within.totalQty_pos (by simp)
        rw [settledStatus, if_pos positive, ← race.total_eq]
        rfl
      · rw [callsOf_append, calls, emittedFills_append, List.map_append, emittedFills_action]
        rfl
    | acknowledged other | fetched other | closed other | retried other | unhandled other =>
      cases reacts.symm.trans other
  · cases step with
    | acknowledged other =>
      cases reacts.symm.trans other
      exact race.acknowledged ledger waits exchangeId delivered
    | duplicate other | buffered other | filled other | fetched other | closed other
    | retried other | unhandled other => cases reacts.symm.trans other
  · cases step with
    | unhandled other =>
      exact race.ignored delivered fun waits => absurd (waits.symm.trans settled) (by decide)
    | acknowledged other | duplicate other | buffered other | filled other | fetched other
    | closed other | retried other => cases reacts.symm.trans other

theorem move {event : OrderEvent} (race : Race orderQty sm inputs trades past)
    (ledger : Ledger sm trades (emittedFills past) applied held)
    (races : ∀ input ∈ event.input?, input.Races)
    (payable : Payable orderQty (deliveredTrades (inputs ++ event.input?.toList)))
    (moves : Moves sm event after actions) :
    Race orderQty after (inputs ++ event.input?.toList)
      (trades ++ observeOrder examined ⟨sm, event, actions⟩) (past ++ actions) := by
  cases moves with
  | ended terminal =>
    have settled : sm.status.waits = false := by
      revert terminal
      cases sm.status <;> decide
    obtain ⟨late, split, _⟩ := race.late
    rw [observeOrder_ended terminal, List.append_nil, List.append_nil]
    refine ⟨race.total_eq, ⟨late ++ deliveredTrades event.input?.toList, ?_, fun running => ?_⟩,
      fun waits => ?_, race.settled⟩
    · rw [deliveredTrades_append, split, List.append_assoc]
    · exact absurd (terminal.symm.trans running) (by decide)
    · exact absurd (waits.symm.trans settled) (by decide)
  | processed running step =>
    rename_i input
    rw [observeOrder_process running]
    exact race.transition ledger running (races input rfl) payable step
  | waited running =>
    rw [observeOrder_tick, List.append_nil]
    simpa only [OrderEvent.input?, Option.toList_none, List.append_nil] using race
  | late pending =>
    have waits : sm.status.waits = true := by rw [pending]; rfl
    rw [observeOrder_tick, List.append_nil]
    simp only [OrderEvent.input?, Option.toList_none, List.append_nil]
    refine ⟨race.total_eq, ⟨[], ?_, fun _ => rfl⟩, fun _ => ?_, by rintro ⟨⟩⟩
    · rw [race.delivered_eq (by rw [pending]; rfl), List.append_nil]
    · rw [callsOf_append, callsOf_scheduleStatusCheck, List.append_nil]
      exact race.waiting waits

/-- A whole run that only meets racing inputs. -/
theorem run (timeoutNs : Int64) (cloid : ClientOrderId) (orderQty submittedNs : Int64)
    (ops : List EngineOp) (races : ∀ input ∈ inputsFor cloid ops, input.Races)
    (payable : Payable orderQty (deliveredTrades (inputsFor cloid ops))) :
    let past := orderHistory timeoutNs cloid orderQty submittedNs ops
    Race orderQty (lastState timeoutNs cloid orderQty submittedNs ops) (inputsFor cloid ops)
      (past.flatMap (observeOrder examined)) (past.flatMap (·.output)) := by
  have whole := (orderMachine timeoutNs).history_induction (.new cloid orderQty submittedNs)
    (P := fun past sm =>
      let inputs := (past.map Machine.Event.input).filterMap OrderEvent.input?
      (∀ input ∈ inputs, input.Races) → Payable orderQty (deliveredTrades inputs) →
        (∃ applied held, Ledger sm (past.flatMap (observeOrder examined))
          (emittedFills (past.flatMap (·.output))) applied held) ∧
        Race orderQty sm inputs (past.flatMap (observeOrder examined)) (past.flatMap (·.output)))
    (fun _ _ => ⟨⟨[], [], .start cloid orderQty submittedNs⟩, start cloid orderQty submittedNs⟩)
    ?_ (eventsFor cloid ops)
  · simp only [Machine.history_inputs] at whole
    exact (whole races payable).2
  · intro past sm event earlier
    simp only [List.map_append, List.filterMap_append, List.map_cons, List.map_nil,
      List.flatMap_append, List.flatMap_singleton, emittedFills_append, List.forall_mem_append,
      filterMap_input_singleton] at earlier ⊢
    intro races payable
    have before := payable
    rw [deliveredTrades_append] at before
    obtain ⟨⟨applied, held, ledger⟩, race⟩ := earlier races.1 before.append_left
    have moves := orderMachine_moves timeoutNs sm event
    exact ⟨ledger.move moves, race.move ledger
      (fun input member => races.2 input (Option.mem_toList.mpr member)) payable moves⟩

section settled

variable (race : Race orderQty sm inputs trades past)
  (ledger : Ledger sm trades (emittedFills past) applied held) (settled : sm.status.waits = false)
  (payable : Payable orderQty (deliveredTrades inputs))

include race ledger settled

/-- A settled order has applied the first occurrences of the trades it examined. -/
private theorem emitted_perm :
    (emittedFills past).Perm ((trades.firstBy Trade.tradeId).map Trade.fill) := by
  obtain ⟨empty, _⟩ := race.settled settled
  have none : held = [] := List.map_eq_nil_iff.mp (ledger.held_eq.trans empty)
  have once := ledger.once.map Trade.fill
  rw [none, List.append_nil, ledger.applied_eq] at once
  exact once

include payable

/-- What a settled order did not examine brings no new trade: it came after the order was full. -/
theorem firsts_eq :
    (deliveredTrades inputs).firstBy Trade.tradeId = trades.firstBy Trade.tradeId := by
  obtain ⟨late, split, none⟩ := race.late
  cases running : sm.status.isTerminal with
  | false => rw [split, none running, List.append_nil]
  | true =>
    obtain ⟨_, status, _⟩ := race.settled settled
    have full : sm.filledQty ≥ orderQty := by
      rw [status, settledStatus] at running
      by_contra short
      rw [if_neg short] at running
      split at running <;> cases running
    rw [ledger.filled, totalQty_perm (race.emitted_perm ledger settled)] at full
    rw [Payable, split, List.firstBy_append, List.map_append] at payable
    rw [split, List.firstBy_append]
    by_contra more
    have fresh : (late.freshBy Trade.tradeId (trades.map Trade.tradeId)).map Trade.fill ≠ [] := by
      intro nothing
      rw [List.map_eq_nil_iff.mp nothing, List.append_nil] at more
      exact more rfl
    have below := Within.totalQty_lt payable fresh
    grind

/-- The last state of a race is a function of the trades delivered. -/
theorem state_eq : sm = { sm with
    status := settledStatus orderQty
      (totalQty (((deliveredTrades inputs).firstBy Trade.tradeId).map Trade.fill))
    filledQty := totalQty (((deliveredTrades inputs).firstBy Trade.tradeId).map Trade.fill)
    bufferedFills := []
    seenTradeIds :=
      (((deliveredTrades inputs).firstBy Trade.tradeId).map Trade.tradeId).toFinset } := by
  obtain ⟨empty, status, _⟩ := race.settled settled
  have filled : sm.filledQty = totalQty ((trades.firstBy Trade.tradeId).map Trade.fill) := by
    rw [ledger.filled, totalQty_perm (race.emitted_perm ledger settled)]
  have seen : sm.seenTradeIds = ((trades.firstBy Trade.tradeId).map Trade.tradeId).toFinset := by
    ext id
    rw [List.mem_toFinset, List.mem_map_firstBy]
    exact ledger.seen id
  rw [race.firsts_eq ledger settled payable, ← filled, ← seen, ← status, ← empty]

end settled

end Race

/-- How a race ends: one acknowledgement and then the distinct trades are applied; the order is
filled and untracked if they make up its quantity, and live otherwise. -/
structure RaceOutcome (engine : StateMachineEngine) (cloid : ClientOrderId)
    (orderQty submittedNs : Int64) (ops : List EngineOp) (trades : List Trade) : Prop where
  calls : ∃ exchangeId,
    callsOf ((engineMachine.history (engine.track cloid orderQty submittedNs) ops).flatMap
        (actionsIn cloid)) =
      .applyAck exchangeId ::
        (runFills cloid (engineMachine.history (engine.track cloid orderQty submittedNs) ops)).map
          BufferedFill.action
  fills : (runFills cloid
      (engineMachine.history (engine.track cloid orderQty submittedNs) ops)).Perm
    ((trades.firstBy Trade.tradeId).map Trade.fill)
  filled : intTotal ((trades.firstBy Trade.tradeId).map Trade.fill) = orderQty.toInt →
    (lastState engine.timeoutNs cloid orderQty submittedNs ops).status = .filled ∧
      (engineMachine.final (engine.track cloid orderQty submittedNs) ops).isTracked cloid = false
  unfilled : intTotal ((trades.firstBy Trade.tradeId).map Trade.fill) ≠ orderQty.toInt →
    (engineMachine.final (engine.track cloid orderQty submittedNs) ops).status cloid =
      some (if intTotal ((trades.firstBy Trade.tradeId).map Trade.fill) = 0 then .new
        else .partiallyFilled)

theorem RaceOutcome.congr {engine : StateMachineEngine} {cloid : ClientOrderId}
    {orderQty submittedNs : Int64} {ops : List EngineOp} {trades others : List Trade}
    (outcome : RaceOutcome engine cloid orderQty submittedNs ops trades)
    (same : (trades.firstBy Trade.tradeId).Perm (others.firstBy Trade.tradeId)) :
    RaceOutcome engine cloid orderQty submittedNs ops others := by
  have total := intTotal_perm (same.map Trade.fill)
  obtain ⟨calls, fills, filled, unfilled⟩ := outcome
  rw [total] at filled unfilled
  exact ⟨calls, fills.trans (same.map Trade.fill), filled, unfilled⟩

section confluence

variable (engine : StateMachineEngine) (cloid : ClientOrderId) {orderQty : Int64}
  (submittedNs : Int64) {ops first second : List EngineOp}

/-- The status of a settled order tells how its trades compare with its quantity. -/
theorem settledStatus_eq {fills : List BufferedFill} (positive : 0 < orderQty)
    (within : Within orderQty fills) :
    settledStatus orderQty (totalQty fills) =
      if intTotal fills = orderQty.toInt then .filled
      else if intTotal fills = 0 then .new
      else .partiallyFilled := by
  have exact := within.toInt_totalQty
  have total := within.total
  have nonneg := Within.intTotal_nonneg within.positive
  have limit := Int64.lt_iff_toInt_lt.mp positive
  change 0 < orderQty.toInt at limit
  have full : totalQty fills ≥ orderQty ↔ intTotal fills = orderQty.toInt := by
    rw [ge_iff_le, Int64.le_iff_toInt_le, exact]
    omega
  have some : totalQty fills > 0 ↔ intTotal fills ≠ 0 := by
    rw [gt_iff_lt, Int64.lt_iff_toInt_lt, exact]
    change 0 < intTotal fills ↔ _
    omega
  simp only [settledStatus, full, some, ite_not]

/-- The outcome of one run in which acknowledgements and fills race. -/
theorem race_outcome (positive : 0 < orderQty) (lifetime : ∀ op ∈ ops, op.Spares cloid)
    (races : ∀ input ∈ inputsFor cloid ops, input.Races)
    (acknowledged : (inputsFor cloid ops).any SmInput.isAck = true)
    (payable : Payable orderQty (deliveredTrades (inputsFor cloid ops))) :
    RaceOutcome engine cloid orderQty submittedNs ops (deliveredTrades (inputsFor cloid ops)) ∧
      lastState engine.timeoutNs cloid orderQty submittedNs ops =
        { cloid
          totalQty := orderQty
          submittedNs
          status := settledStatus orderQty (totalQty
            (((deliveredTrades (inputsFor cloid ops)).firstBy Trade.tradeId).map Trade.fill))
          filledQty := totalQty
            (((deliveredTrades (inputsFor cloid ops)).firstBy Trade.tradeId).map Trade.fill)
          bufferedFills := []
          seenTradeIds := (((deliveredTrades (inputsFor cloid ops)).firstBy
            Trade.tradeId).map Trade.tradeId).toFinset } := by
  obtain ⟨applied, held, ledger⟩ :=
    Ledger.run engine.timeoutNs cloid orderQty submittedNs ops
  have race := Race.run engine.timeoutNs cloid orderQty submittedNs ops races payable
  have actions := (engineMachine_refines engine orderQty submittedNs lifetime).2
  have constants := lastState_constants engine.timeoutNs cloid orderQty submittedNs ops
  have settled :
      (lastState engine.timeoutNs cloid orderQty submittedNs ops).status.waits = false := by
    by_contra waits
    have none := (race.waiting (Bool.not_eq_false _ ▸ waits)).1
    exact absurd (acknowledged.symm.trans none) (by decide)
  have state := race.state_eq ledger settled payable
  have status := congrArg OrderSm.status state
  rw [settledStatus_eq positive payable] at status
  refine ⟨⟨?_, ?_, fun total => ?_, fun total => ?_⟩, ?_⟩
  · rw [runFills, actions]
    exact (race.settled settled).2.2
  · rw [runFills, actions, race.firsts_eq ledger settled payable]
    exact race.emitted_perm ledger settled
  · rw [if_pos total] at status
    exact ⟨status, by rw [isTracked_final engine orderQty submittedNs lifetime, status]; rfl⟩
  · rw [if_neg total] at status
    rw [status_final engine orderQty submittedNs lifetime, status]
    split <;> rfl
  · rw [state, constants.1, constants.2.1, constants.2.2]

/-- Two delivery orders of the same acknowledgements and fills, with timer ticks and calls about
other orders anywhere between them, have the same outcome. -/
theorem delivery_order_irrelevant (positive : 0 < orderQty)
    (lifetimeFirst : ∀ op ∈ first, op.Spares cloid)
    (lifetimeSecond : ∀ op ∈ second, op.Spares cloid)
    (same : (inputsFor cloid first).Perm (inputsFor cloid second))
    (races : ∀ input ∈ inputsFor cloid first, input.Races)
    (acknowledged : (inputsFor cloid first).any SmInput.isAck = true)
    (consistent : ∀ a ∈ deliveredTrades (inputsFor cloid first),
      ∀ b ∈ deliveredTrades (inputsFor cloid first), a.tradeId = b.tradeId → a = b)
    (payable : Payable orderQty (deliveredTrades (inputsFor cloid first))) :
    RaceOutcome engine cloid orderQty submittedNs first
        (deliveredTrades (inputsFor cloid first)) ∧
      RaceOutcome engine cloid orderQty submittedNs second
        (deliveredTrades (inputsFor cloid first)) ∧
      lastState engine.timeoutNs cloid orderQty submittedNs first =
        lastState engine.timeoutNs cloid orderQty submittedNs second := by
  have trades : (deliveredTrades (inputsFor cloid first)).Perm
      (deliveredTrades (inputsFor cloid second)) := same.flatMap_right _
  have firsts := List.firstBy_perm trades consistent
  have fills := firsts.map Trade.fill
  have total := totalQty_perm fills
  have ids := List.toFinset_eq_of_perm _ _ (firsts.map Trade.tradeId)
  obtain ⟨outcomeFirst, stateFirst⟩ := race_outcome engine cloid submittedNs positive lifetimeFirst
    races acknowledged payable
  obtain ⟨outcomeSecond, stateSecond⟩ := race_outcome engine cloid submittedNs positive
    lifetimeSecond (fun input member => races input (same.mem_iff.mpr member))
    (same.any_eq.symm.trans acknowledged) (Within.perm payable fills)
  exact ⟨outcomeFirst, outcomeSecond.congr firsts.symm,
    by rw [stateFirst, stateSecond, total, ids]⟩

/-- A fill that overtakes its acknowledgement and is redelivered, against the regular order. -/
theorem delivery_order_irrelevant_early_fill :
    let early : List EngineOp :=
      [.process ⟨"a"⟩ (.fillReceived ⟨1, 4, 100⟩ 1), .tick 9,
        .process ⟨"a"⟩ (.fillReceived ⟨1, 4, 100⟩ 3), .process ⟨"a"⟩ (.acknowledged 9 4)]
    let regular : List EngineOp :=
      [.process ⟨"a"⟩ (.acknowledged 9 4), .process ⟨"a"⟩ (.fillReceived ⟨1, 4, 100⟩ 1),
        .process ⟨"a"⟩ (.fillReceived ⟨1, 4, 100⟩ 3)]
    lastState 5 ⟨"a"⟩ 10 0 early = lastState 5 ⟨"a"⟩ 10 0 regular := by
  intro early regular
  have inputs : inputsFor ⟨"a"⟩ early = [.fillReceived ⟨1, 4, 100⟩ 1,
      .fillReceived ⟨1, 4, 100⟩ 3, .acknowledged 9 4] := by decide
  have others : inputsFor ⟨"a"⟩ regular = [.acknowledged 9 4, .fillReceived ⟨1, 4, 100⟩ 1,
      .fillReceived ⟨1, 4, 100⟩ 3] := by decide
  refine (delivery_order_irrelevant (.withTimeoutNs 5) ⟨"a"⟩ 0 (by decide)
    (by simp [early, EngineOp.Spares]) (by simp [regular, EngineOp.Spares]) ?_ ?_ ?_ ?_ ?_).2.2
  · rw [inputs, others]
    decide
  · rw [inputs]
    simp [SmInput.Races]
  · rw [inputs]
    decide
  · rw [inputs]
    decide
  · rw [inputs]
    exact ⟨by decide, by decide⟩

end confluence

end TradingConnectivity.Lifecycle
