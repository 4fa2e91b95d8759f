import TradingConnectivity.Lifecycle.Engine

/-! # A run of the engine seen from one order

Between the call that starts tracking an order and the one that stops it, an engine run is, for
this order, a run of the machine of one order: calls about other orders are invisible to it. The
engine stores the state of that machine exactly as long as it is not terminal, returns the same
actions, and shows the same states and inputs to an observer.
-/

namespace TradingConnectivity.Lifecycle

open Gateway (ClientOrderId)

/-- What can happen to one tracked order. -/
inductive OrderEvent
  | process (input : SmInput)
  | tick (nowNs : Int64)
deriving DecidableEq, Repr

/-- The machine of one order: it ignores everything once it is terminal. -/
def orderMachine (timeoutNs : Int64) : Machine OrderSm OrderEvent (List SmAction) where
  step sm event :=
    if sm.status.isTerminal then (sm, [])
    else
      match event with
      | .process input => sm.processInput input
      | .tick nowNs => sm.tick timeoutNs nowNs

section orderMachine

variable {sm : OrderSm} (timeoutNs : Int64)

theorem orderMachine_ended (ended : sm.status.isTerminal = true) (event : OrderEvent) :
    (orderMachine timeoutNs).step sm event = (sm, []) := by
  simp only [orderMachine, ended, if_true]

theorem orderMachine_process (running : sm.status.isTerminal = false) (input : SmInput) :
    (orderMachine timeoutNs).step sm (.process input) = sm.processInput input := by
  simp only [orderMachine, running, Bool.false_eq_true, if_false]

theorem orderMachine_tick (running : sm.status.isTerminal = false) (nowNs : Int64) :
    (orderMachine timeoutNs).step sm (.tick nowNs) = sm.tick timeoutNs nowNs := by
  simp only [orderMachine, running, Bool.false_eq_true, if_false]

/-- The ways an order moves on an event. -/
inductive Moves (sm : OrderSm) : OrderEvent → OrderSm → List SmAction → Prop
  | ended {event : OrderEvent} (terminal : sm.status.isTerminal = true) : Moves sm event sm []
  | processed {input : SmInput} {after : OrderSm} {actions : List SmAction}
      (running : sm.status.isTerminal = false) (step : Transition sm input after actions) :
      Moves sm (.process input) after actions
  | waited {nowNs : Int64} (running : sm.status.isTerminal = false) : Moves sm (.tick nowNs) sm []
  | late {nowNs : Int64} (pending : sm.status = .pending) :
      Moves sm (.tick nowNs) { sm with status := .unknownStatus } [.scheduleStatusCheck]

theorem orderMachine_moves (sm : OrderSm) (event : OrderEvent) :
    Moves sm event ((orderMachine timeoutNs).next sm event)
      ((orderMachine timeoutNs).answer sm event) := by
  simp only [Machine.next, Machine.answer]
  cases ended : sm.status.isTerminal with
  | true =>
    rw [orderMachine_ended timeoutNs ended]
    exact .ended ended
  | false =>
    cases event with
    | process input =>
      rw [orderMachine_process timeoutNs ended]
      exact .processed ended (sm.processInput_transition ended input)
    | tick nowNs =>
      rw [orderMachine_tick timeoutNs ended]
      rcases sm.tick_cases timeoutNs nowNs with same | ⟨pending, same⟩
      · rw [same]
        exact .waited ended
      · rw [same]
        exact .late pending

end orderMachine

/-- The part of a call that an order can see. -/
def eventFor (cloid : ClientOrderId) : EngineOp → Option OrderEvent
  | .process other input => if other = cloid then some (.process input) else none
  | .tick nowNs => some (.tick nowNs)
  | _ => none

/-- An order sees the inputs addressed to it and the timer. -/
theorem eventFor_eq_some {cloid : ClientOrderId} {op : EngineOp} {event : OrderEvent}
    (seen : eventFor cloid op = some event) :
    (∃ input, op = .process cloid input ∧ event = .process input) ∨
      ∃ nowNs, op = .tick nowNs ∧ event = .tick nowNs := by
  cases op with
  | track | untrack => cases seen
  | process other input =>
    by_cases same : other = cloid
    · subst same
      simp only [eventFor, if_true, Option.some.injEq] at seen
      exact .inl ⟨input, rfl, seen.symm⟩
    · simp only [eventFor, same, if_false, reduceCtorEq] at seen
  | tick nowNs =>
    cases seen
    exact .inr ⟨nowNs, rfl, rfl⟩

theorem ne_of_unseen {cloid other : ClientOrderId} {input : SmInput}
    (unseen : eventFor cloid (.process other input) = none) : other ≠ cloid := by
  rintro rfl
  simp [eventFor] at unseen

/-- A call that neither starts nor stops the tracking of an order. -/
def EngineOp.Spares (cloid : ClientOrderId) : EngineOp → Prop
  | .track other _ _ => other ≠ cloid
  | .untrack other => other ≠ cloid
  | _ => True

/-- The engine stores exactly what the machine of one order says, as long as it is not terminal. -/
structure Tracks (cloid : ClientOrderId) (timeoutNs : Int64) (engine : StateMachineEngine)
    (sm : OrderSm) : Prop where
  timeout_eq : engine.timeoutNs = timeoutNs
  cloid_eq : sm.cloid = cloid
  stored : engine.orders[cloid]? = if sm.status.isTerminal then none else some sm

namespace Tracks

variable {cloid : ClientOrderId} {timeoutNs : Int64} {engine : StateMachineEngine} {sm : OrderSm}

/-- Calls an order cannot see leave it alone. -/
theorem idle (tracks : Tracks cloid timeoutNs engine sm) {op : EngineOp} (spares : op.Spares cloid)
    (unseen : eventFor cloid op = none) :
    Tracks cloid timeoutNs (engineMachine.next engine op) sm ∧
      actionsFor cloid (engineMachine.answer engine op) = [] := by
  obtain ⟨timeout_eq, cloid_eq, stored⟩ := tracks
  cases op with
  | track other totalQty submittedNs =>
    have different : other ≠ cloid := spares
    refine ⟨⟨timeout_eq, cloid_eq, ?_⟩, rfl⟩
    change (engine.track other totalQty submittedNs).orders[cloid]? = _
    rw [← stored]
    simp only [StateMachineEngine.track, StateMachineEngine.store_orders, OrderSm.new]
    grind
  | untrack other =>
    have different : other ≠ cloid := spares
    refine ⟨⟨timeout_eq, cloid_eq, ?_⟩, rfl⟩
    change (engine.untrack other).orders[cloid]? = _
    rw [← stored, StateMachineEngine.untrack_orders]
    grind
  | process other input =>
    have different := ne_of_unseen unseen
    refine ⟨⟨?_, cloid_eq, ?_⟩, ?_⟩
    · exact (engine.process_timeoutNs other input).trans timeout_eq
    · exact (engine.process_other other (Ne.symm different) input).trans stored
    · change actionsFor cloid (Except.map _ (engine.process other input).2) = []
      cases (engine.process other input).2 with
      | error e => rfl
      | ok actions => simp [Except.map, actionsFor, different]
  | tick nowNs => cases unseen

/-- Calls an order can see move the engine and the machine of the order together. -/
theorem move (tracks : Tracks cloid timeoutNs engine sm) {op : EngineOp} {event : OrderEvent}
    (seen : eventFor cloid op = some event) :
    Tracks cloid timeoutNs (engineMachine.next engine op) ((orderMachine timeoutNs).next sm event) ∧
      actionsFor cloid (engineMachine.answer engine op) =
        (orderMachine timeoutNs).answer sm event := by
  obtain ⟨rfl, cloid_eq, stored⟩ := tracks
  rcases eventFor_eq_some seen with ⟨input, rfl, rfl⟩ | ⟨nowNs, rfl, rfl⟩
  · have named : ∀ actions : List SmAction,
        actionsFor cloid (.ok (actions.map fun action => (cloid, action))) = actions := by
      intro actions
      simp [actionsFor]
    cases ended : sm.status.isTerminal with
    | true =>
      rw [ended, if_pos rfl] at stored
      have missing := engine.process_missing cloid stored input
      simp only [Machine.next, Machine.answer, engineMachine, StateMachineEngine.exec, missing,
        orderMachine_ended _ ended, Prod.map]
      exact ⟨⟨rfl, cloid_eq, by rw [ended, if_pos rfl]; exact stored⟩, rfl⟩
    | false =>
      rw [ended, if_neg Bool.false_ne_true] at stored
      obtain ⟨actions, orders⟩ := engine.process_tracked cloid stored input
      simp only [Machine.next, Machine.answer, engineMachine, StateMachineEngine.exec,
        orderMachine_process _ ended, Prod.map, actions, Except.map, named, and_true, id]
      refine ⟨engine.process_timeoutNs cloid input, ?_, ?_⟩
      · exact (sm.processInput_cloid input).trans cloid_eq
      · rw [orders]
        split <;> simp
  · have actions := actionsFor_tick cloid engine nowNs
    have orders := engine.tick_orders cloid nowNs
    simp only [Machine.next, Machine.answer, engineMachine, StateMachineEngine.exec, Prod.map, id]
    rw [actions]
    cases ended : sm.status.isTerminal with
    | true =>
      rw [ended, if_pos rfl] at stored
      rw [orderMachine_ended _ ended, stored]
      refine ⟨⟨rfl, cloid_eq, ?_⟩, rfl⟩
      rw [orders, stored, ended, if_pos rfl, Option.map_none]
    | false =>
      rw [ended, if_neg Bool.false_ne_true] at stored
      rw [orderMachine_tick _ ended, stored]
      refine ⟨⟨rfl, (sm.tick_cloid _ _).trans cloid_eq, ?_⟩, rfl⟩
      rw [orders, stored, OrderSm.tick_running ended, if_neg Bool.false_ne_true, Option.map_some]

/-- A tracked order that is not terminal answers with the actions of its handler. -/
theorem answer_running (tracks : Tracks cloid timeoutNs engine sm)
    (running : sm.status.isTerminal = false) (input : SmInput) :
    engineMachine.answer engine (.process cloid input) =
      .ok ((sm.processInput input).2.map fun action => (cloid, action)) := by
  have stored := tracks.stored
  rw [running, if_neg Bool.false_ne_true] at stored
  simp only [Machine.answer, engineMachine, StateMachineEngine.exec, Prod.map, Except.map,
    (engine.process_tracked cloid stored input).1]

theorem isTracked (tracks : Tracks cloid timeoutNs engine sm) :
    engine.isTracked cloid = !sm.status.isTerminal := by
  rw [StateMachineEngine.isTracked_eq, tracks.stored]
  cases sm.status.isTerminal <;> rfl

end Tracks

/-! ## Observing a run -/

abbrev EngineEvent := Machine.Event StateMachineEngine EngineOp Answer

/-- What an observer notes about the inputs an order processes while it is tracked. -/
def observe {α : Type*} (look : OrderSm → SmInput → List α) (cloid : ClientOrderId)
    (event : EngineEvent) : List α :=
  match event.input with
  | .process other input =>
      if other = cloid then
        match event.before.orders[cloid]? with
        | none => []
        | some sm => look sm input
      else []
  | _ => []

/-- The same observation on the machine of the order. -/
def observeOrder {α : Type*} (look : OrderSm → SmInput → List α)
    (event : Machine.Event OrderSm OrderEvent (List SmAction)) : List α :=
  if event.before.status.isTerminal then []
  else
    match event.input with
    | .process input => look event.before input
    | .tick _ => []

section observeOrder

variable {α : Type*} {look : OrderSm → SmInput → List α} {sm : OrderSm} {actions : List SmAction}

theorem observeOrder_ended (terminal : sm.status.isTerminal = true) (event : OrderEvent) :
    observeOrder look ⟨sm, event, actions⟩ = [] := if_pos terminal

theorem observeOrder_process (running : sm.status.isTerminal = false) (input : SmInput) :
    observeOrder look ⟨sm, .process input, actions⟩ = look sm input := by
  simp only [observeOrder, running, Bool.false_eq_true, if_false]

theorem observeOrder_tick (nowNs : Int64) :
    observeOrder look ⟨sm, .tick nowNs, actions⟩ = [] := by
  simp only [observeOrder, ite_self]

end observeOrder

/-- The actions of one call for an order. -/
def actionsIn (cloid : ClientOrderId) (event : EngineEvent) : List SmAction :=
  actionsFor cloid event.output

/-- The events an order sees in a list of calls. -/
def eventsFor (cloid : ClientOrderId) (ops : List EngineOp) : List OrderEvent :=
  ops.filterMap (eventFor cloid)

theorem eventsFor_cons_none {cloid : ClientOrderId} {op : EngineOp}
    (unseen : eventFor cloid op = none) (rest : List EngineOp) :
    eventsFor cloid (op :: rest) = eventsFor cloid rest := List.filterMap_cons_none unseen

theorem eventsFor_cons_some {cloid : ClientOrderId} {op : EngineOp} {event : OrderEvent}
    (seen : eventFor cloid op = some event) (rest : List EngineOp) :
    eventsFor cloid (op :: rest) = event :: eventsFor cloid rest := List.filterMap_cons_some seen

/-- The last state of an order tracked before a list of calls. -/
def lastState (timeoutNs : Int64) (cloid : ClientOrderId) (totalQty submittedNs : Int64)
    (ops : List EngineOp) : OrderSm :=
  (orderMachine timeoutNs).final (.new cloid totalQty submittedNs) (eventsFor cloid ops)

/-- The events of the order itself. -/
def orderHistory (timeoutNs : Int64) (cloid : ClientOrderId) (totalQty submittedNs : Int64)
    (ops : List EngineOp) : List (Machine.Event OrderSm OrderEvent (List SmAction)) :=
  (orderMachine timeoutNs).history (.new cloid totalQty submittedNs) (eventsFor cloid ops)

/-- One more input takes a running order through its handler. -/
theorem lastState_process {timeoutNs : Int64} {cloid : ClientOrderId}
    {totalQty submittedNs : Int64} {ops : List EngineOp}
    (running : (lastState timeoutNs cloid totalQty submittedNs ops).status.isTerminal = false)
    (input : SmInput) :
    lastState timeoutNs cloid totalQty submittedNs (ops ++ [.process cloid input]) =
      ((lastState timeoutNs cloid totalQty submittedNs ops).processInput input).1 := by
  have seen : eventsFor cloid (ops ++ [.process cloid input]) =
      eventsFor cloid ops ++ [.process input] := by
    simp [eventsFor, eventFor]
  rw [lastState, seen, Machine.final_append, Machine.final_cons, Machine.final_nil, Machine.next]
  exact congrArg Prod.fst (orderMachine_process timeoutNs running input)

theorem Moves.constants {sm after : OrderSm} {event : OrderEvent} {actions : List SmAction}
    (moves : Moves sm event after actions) :
    after.cloid = sm.cloid ∧ after.totalQty = sm.totalQty ∧ after.submittedNs = sm.submittedNs := by
  cases moves with
  | processed running step => cases step <;> exact ⟨rfl, rfl, rfl⟩
  | ended | waited | late => exact ⟨rfl, rfl, rfl⟩

/-- A terminal order does not come back. -/
theorem Moves.running_of_running {sm after : OrderSm} {event : OrderEvent}
    {actions : List SmAction} (moves : Moves sm event after actions)
    (running : after.status.isTerminal = false) : sm.status.isTerminal = false := by
  cases moves with
  | ended => exact running
  | processed before => exact before
  | waited before => exact before
  | late pending => rw [pending]; rfl

/-- An order keeps its id, its quantity and its submission time. -/
theorem lastState_constants (timeoutNs : Int64) (cloid : ClientOrderId)
    (totalQty submittedNs : Int64) (ops : List EngineOp) :
    let last := lastState timeoutNs cloid totalQty submittedNs ops
    last.cloid = cloid ∧ last.totalQty = totalQty ∧ last.submittedNs = submittedNs := by
  refine (orderMachine timeoutNs).invariant (P := fun sm : OrderSm =>
    sm.cloid = cloid ∧ sm.totalQty = totalQty ∧ sm.submittedNs = submittedNs)
    (fun sm event same => ?_) ⟨rfl, rfl, rfl⟩ (eventsFor cloid ops)
  obtain ⟨id, total, time⟩ := (orderMachine_moves timeoutNs sm event).constants
  exact ⟨id.trans same.1, total.trans same.2.1, time.trans same.2.2⟩

section refinement

variable (engine : StateMachineEngine) {cloid : ClientOrderId} (totalQty submittedNs : Int64)
  {ops : List EngineOp}

theorem tracks_track :
    Tracks cloid engine.timeoutNs (engine.track cloid totalQty submittedNs)
      (.new cloid totalQty submittedNs) :=
  ⟨rfl, rfl, engine.track_self cloid totalQty submittedNs⟩

/-- The engine stores the last state of the order unless it is terminal, and has returned the
actions of its machine. -/
theorem engineMachine_refines (lifetime : ∀ op ∈ ops, op.Spares cloid) :
    Tracks cloid engine.timeoutNs
        (engineMachine.final (engine.track cloid totalQty submittedNs) ops)
        (lastState engine.timeoutNs cloid totalQty submittedNs ops) ∧
      (engineMachine.history (engine.track cloid totalQty submittedNs) ops).flatMap
          (actionsIn cloid) =
        (orderHistory engine.timeoutNs cloid totalQty submittedNs ops).flatMap (·.output) :=
  engineMachine.stutter_simulation (orderMachine engine.timeoutNs) (eventFor cloid)
    (actionsIn cloid) (·.output)
    (fun _ _ _ tracks spares unseen => tracks.idle spares unseen)
    (fun _ _ _ _ tracks _ seen => tracks.move seen)
    (tracks_track engine totalQty submittedNs) lifetime

/-- The engine tracks the order exactly while it is not terminal. -/
theorem isTracked_final (lifetime : ∀ op ∈ ops, op.Spares cloid) :
    (engineMachine.final (engine.track cloid totalQty submittedNs) ops).isTracked cloid =
      !(lastState engine.timeoutNs cloid totalQty submittedNs ops).status.isTerminal :=
  (engineMachine_refines engine totalQty submittedNs lifetime).1.isTracked

/-- Processing an input of a tracked order returns the actions of its handler. -/
theorem answer_process (lifetime : ∀ op ∈ ops, op.Spares cloid)
    (running :
      (lastState engine.timeoutNs cloid totalQty submittedNs ops).status.isTerminal = false)
    (input : SmInput) :
    actionsFor cloid (engineMachine.answer
        (engineMachine.final (engine.track cloid totalQty submittedNs) ops)
        (.process cloid input)) =
      ((lastState engine.timeoutNs cloid totalQty submittedNs ops).processInput input).2 := by
  have tracks := (engineMachine_refines engine totalQty submittedNs lifetime).1
  have seen : eventFor cloid (.process cloid input) = some (.process input) := if_pos rfl
  rw [(tracks.move seen).2, Machine.answer]
  exact congrArg Prod.snd (orderMachine_process engine.timeoutNs running input)

/-- The engine reports the status of a tracked order. -/
theorem status_final (lifetime : ∀ op ∈ ops, op.Spares cloid) :
    (engineMachine.final (engine.track cloid totalQty submittedNs) ops).status cloid =
      if (lastState engine.timeoutNs cloid totalQty submittedNs ops).status.isTerminal then none
      else some (lastState engine.timeoutNs cloid totalQty submittedNs ops).status := by
  rw [StateMachineEngine.status,
    (engineMachine_refines engine totalQty submittedNs lifetime).1.stored]
  split <;> rfl

/-- An observer of the engine notes what an observer of the order's machine does. -/
theorem observe_refines {α : Type*} (look : OrderSm → SmInput → List α)
    (lifetime : ∀ op ∈ ops, op.Spares cloid) :
    (engineMachine.history (engine.track cloid totalQty submittedNs) ops).flatMap
        (observe look cloid) =
      (orderHistory engine.timeoutNs cloid totalQty submittedNs ops).flatMap
        (observeOrder look) := by
  refine (engineMachine.stutter_simulation (orderMachine engine.timeoutNs) (eventFor cloid)
    (observe look cloid) (observeOrder look) ?_ ?_ (tracks_track engine totalQty submittedNs)
    lifetime).2
  · intro before sm op tracks spares unseen
    refine ⟨(tracks.idle spares unseen).1, ?_⟩
    cases op with
    | process other input =>
      have different := ne_of_unseen unseen
      simp only [observe, different, if_false]
    | track | untrack | tick => rfl
  · intro before sm op event tracks spares seen
    refine ⟨(tracks.move seen).1, ?_⟩
    have stored := tracks.stored
    rcases eventFor_eq_some seen with ⟨input, rfl, rfl⟩ | ⟨nowNs, rfl, rfl⟩
    · cases ended : sm.status.isTerminal <;> simp [observe, observeOrder, stored, ended]
    · simp only [observe, observeOrder]
      split <;> rfl

end refinement

end TradingConnectivity.Lifecycle
