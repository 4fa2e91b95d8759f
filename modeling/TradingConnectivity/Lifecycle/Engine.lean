import Std.Data.ExtTreeMap.Lemmas
import TradingConnectivity.Lifecycle.Transition
import TradingConnectivity.Machine.History

/-! # The state machine engine

The engine owns the machines of all in-flight orders. It hands an exchange event to the order it
names, forgets orders as they become terminal, and on a timer moves late pending orders to the
unknown status. The fields of the engine carry what its calls rely on: an order is stored under its
own id, and only while it is not terminal.
-/

namespace TradingConnectivity.Lifecycle

open Gateway (ClientOrderId)

inductive SmError
  | orderNotTracked (cloid : String)
deriving DecidableEq, Repr

structure StateMachineEngine where
  orders : Std.ExtTreeMap ClientOrderId OrderSm
  timeoutNs : Int64
  keyed : ∀ (cloid : ClientOrderId) (sm : OrderSm), orders[cloid]? = some sm → sm.cloid = cloid
  running : ∀ (cloid : ClientOrderId) (sm : OrderSm), orders[cloid]? = some sm →
    sm.status.isTerminal = false

theorem Transition.cloid {sm after : OrderSm} {input : SmInput} {actions : List SmAction}
    (step : Transition sm input after actions) : after.cloid = sm.cloid := by
  cases step <;> rfl

theorem OrderSm.processInput_cloid (sm : OrderSm) (input : SmInput) :
    (sm.processInput input).1.cloid = sm.cloid := by
  cases running : sm.status.isTerminal with
  | true => simp only [OrderSm.processInput, running, if_true]
  | false => exact (OrderSm.processInput_transition running input).cloid

theorem OrderSm.tick_cloid (sm : OrderSm) (timeoutNs nowNs : Int64) :
    (sm.tick timeoutNs nowNs).1.cloid = sm.cloid := by
  rcases sm.tick_cases timeoutNs nowNs with same | ⟨_, same⟩ <;> rw [same]

theorem OrderSm.tick_running {sm : OrderSm} (running : sm.status.isTerminal = false)
    (timeoutNs nowNs : Int64) : (sm.tick timeoutNs nowNs).1.status.isTerminal = false := by
  rcases sm.tick_cases timeoutNs nowNs with same | ⟨_, same⟩ <;> rw [same]
  · exact running
  · rfl

namespace StateMachineEngine

/-- The default time before an unacknowledged order becomes unknown, five seconds. -/
def defaultUnknownTimeoutNs : Int64 := 5000000000

def withTimeoutNs (timeoutNs : Int64) : StateMachineEngine where
  orders := ∅
  timeoutNs := timeoutNs
  keyed := by simp
  running := by simp

def new : StateMachineEngine := withTimeoutNs defaultUnknownTimeoutNs

/-- Store a running order under its id. -/
def store (engine : StateMachineEngine) (sm : OrderSm) (running : sm.status.isTerminal = false) :
    StateMachineEngine where
  orders := engine.orders.insert sm.cloid sm
  timeoutNs := engine.timeoutNs
  keyed := by
    have keyed := engine.keyed
    grind
  running := by
    have running := engine.running
    grind

/-- Start tracking a newly submitted order. -/
def track (engine : StateMachineEngine) (cloid : ClientOrderId) (totalQty submittedNs : Int64) :
    StateMachineEngine :=
  engine.store (.new cloid totalQty submittedNs) rfl

/-- Stop tracking an order. -/
def untrack (engine : StateMachineEngine) (cloid : ClientOrderId) : StateMachineEngine where
  orders := engine.orders.erase cloid
  timeoutNs := engine.timeoutNs
  keyed := by
    have keyed := engine.keyed
    grind
  running := by
    have running := engine.running
    grind

/-- Feed one exchange event to an order; the order is taken out and comes back only if it is not
terminal. -/
def process (engine : StateMachineEngine) (cloid : ClientOrderId) (input : SmInput) :
    StateMachineEngine × Except SmError (List SmAction) :=
  match engine.orders[cloid]? with
  | none => (engine, .error (.orderNotTracked cloid.asStr))
  | some sm =>
      let (after, actions) := sm.processInput input
      let rest := engine.untrack cloid
      (if running : after.status.isTerminal = false then rest.store after running else rest,
        .ok actions)

/-- Advance the clock: every pending order past the timeout becomes unknown. -/
def tick (engine : StateMachineEngine) (nowNs : Int64) :
    StateMachineEngine × List (ClientOrderId × SmAction) :=
  ({ orders := engine.orders.map fun _ sm => (sm.tick engine.timeoutNs nowNs).1
     timeoutNs := engine.timeoutNs
     keyed := by
      have keyed := engine.keyed
      grind [OrderSm.tick_cloid]
     running := by
      have running := engine.running
      grind [OrderSm.tick_running] },
    engine.orders.toList.flatMap fun (_, sm) =>
      (sm.tick engine.timeoutNs nowNs).2.map fun action => (sm.cloid, action))

def status (engine : StateMachineEngine) (cloid : ClientOrderId) : Option SmStatus :=
  engine.orders[cloid]?.map OrderSm.status

def isTracked (engine : StateMachineEngine) (cloid : ClientOrderId) : Bool :=
  engine.orders.contains cloid

/-! ## What the calls do to the stored orders -/

variable (engine : StateMachineEngine) (cloid : ClientOrderId)

@[simp] theorem store_orders (sm : OrderSm) (running : sm.status.isTerminal = false) :
    (engine.store sm running).orders = engine.orders.insert sm.cloid sm := rfl

@[simp] theorem untrack_orders : (engine.untrack cloid).orders = engine.orders.erase cloid := rfl

theorem isTracked_eq : engine.isTracked cloid = engine.orders[cloid]?.isSome :=
  Std.ExtTreeMap.contains_eq_isSome_getElem?

theorem track_self (totalQty submittedNs : Int64) :
    (engine.track cloid totalQty submittedNs).orders[cloid]? =
      some (.new cloid totalQty submittedNs) := by
  simp only [track, store_orders, OrderSm.new, Std.ExtTreeMap.getElem?_insert_self]

theorem process_missing (missing : engine.orders[cloid]? = none) (input : SmInput) :
    engine.process cloid input = (engine, .error (.orderNotTracked cloid.asStr)) := by
  simp only [process, missing]

/-- An order that is tracked processes the event and stays tracked unless it became terminal. -/
theorem process_tracked {sm : OrderSm} (tracked : engine.orders[cloid]? = some sm)
    (input : SmInput) :
    (engine.process cloid input).2 = .ok (sm.processInput input).2 ∧
      (engine.process cloid input).1.orders =
        if (sm.processInput input).1.status.isTerminal then engine.orders.erase cloid
        else (engine.orders.erase cloid).insert cloid (sm.processInput input).1 := by
  have own : (sm.processInput input).1.cloid = cloid :=
    (sm.processInput_cloid input).trans (engine.keyed cloid sm tracked)
  simp only [process, tracked, true_and]
  split
  · rename_i running
    simp only [store_orders, untrack_orders, own, running, Bool.false_eq_true, if_false]
  · rename_i ended
    simp only [untrack_orders, Bool.not_eq_false _ ▸ ended, if_true]

theorem process_timeoutNs (input : SmInput) :
    (engine.process cloid input).1.timeoutNs = engine.timeoutNs := by
  unfold process
  split
  · rfl
  · simp only
    split <;> rfl

/-- An event of one order does not touch another. -/
theorem process_other {other : ClientOrderId} (different : other ≠ cloid) (input : SmInput) :
    (engine.process cloid input).1.orders[other]? = engine.orders[other]? := by
  cases tracked : engine.orders[cloid]? with
  | none => rw [process_missing engine cloid tracked]
  | some sm =>
    rw [(process_tracked engine cloid tracked input).2]
    split <;> grind

/-- The timer asks for nothing but status checks. -/
theorem tick_checks (nowNs : Int64) :
    ∀ entry ∈ (engine.tick nowNs).2, entry.2 = .scheduleStatusCheck := by
  intro entry member
  obtain ⟨⟨id, sm⟩, _, inside⟩ := List.mem_flatMap.mp member
  obtain ⟨action, emitted, rfl⟩ := List.mem_map.mp inside
  rcases sm.tick_cases engine.timeoutNs nowNs with same | ⟨_, same⟩ <;> rw [same] at emitted
  · cases emitted
  · exact List.mem_singleton.mp emitted

/-- The timer reaches every stored order by its own part. -/
theorem tick_orders (nowNs : Int64) :
    (engine.tick nowNs).1.orders[cloid]? =
      engine.orders[cloid]?.map fun sm => (sm.tick engine.timeoutNs nowNs).1 := by
  simp only [tick, Std.ExtTreeMap.getElem?_map]

end StateMachineEngine

/-! ## Runs -/

/-- One call of the engine that changes it. -/
inductive EngineOp
  | track (cloid : ClientOrderId) (totalQty submittedNs : Int64)
  | untrack (cloid : ClientOrderId)
  | process (cloid : ClientOrderId) (input : SmInput)
  | tick (nowNs : Int64)
deriving DecidableEq, Repr

/-- The actions a call returns, each with the order it is for. -/
abbrev Answer := Except SmError (List (ClientOrderId × SmAction))

def StateMachineEngine.exec (engine : StateMachineEngine) : EngineOp → StateMachineEngine × Answer
  | .track cloid totalQty submittedNs => (engine.track cloid totalQty submittedNs, .ok [])
  | .untrack cloid => (engine.untrack cloid, .ok [])
  | .process cloid input =>
      (engine.process cloid input).map id (Except.map (List.map fun action => (cloid, action)))
  | .tick nowNs => (engine.tick nowNs).map id .ok

def engineMachine : Machine StateMachineEngine EngineOp Answer where
  step := StateMachineEngine.exec

/-- The actions of a processed event are for the order it names. -/
theorem answer_process_key {engine : StateMachineEngine} {cloid : ClientOrderId} {input : SmInput}
    {actions : List (ClientOrderId × SmAction)}
    (answered : engineMachine.answer engine (.process cloid input) = .ok actions) :
    ∀ entry ∈ actions, entry.1 = cloid := by
  simp only [Machine.answer, engineMachine, StateMachineEngine.exec, Prod.map] at answered
  cases processed : (engine.process cloid input).2 with
  | error e =>
    rw [processed] at answered
    cases answered
  | ok plain =>
    rw [processed] at answered
    cases answered
    intro entry member
    obtain ⟨action, _, rfl⟩ := List.mem_map.mp member
    rfl

/-- The actions of an answer for one order. -/
def actionsFor (cloid : ClientOrderId) : Answer → List SmAction
  | .error _ => []
  | .ok actions =>
    actions.filterMap fun (other, action) => if other = cloid then some action else none

/-- If only one element of a list contributes, the list contributes what this element does. -/
private theorem flatMap_eq_of_unique {α β : Type*} {f : α → List β} {x : α} {xs : List α}
    (nodup : xs.Nodup) (member : x ∈ xs) (others : ∀ y ∈ xs, y ≠ x → f y = []) :
    xs.flatMap f = f x := by
  induction xs with
  | nil => cases member
  | cons y rest ih =>
    obtain ⟨fresh, nodup⟩ := List.nodup_cons.mp nodup
    rw [List.flatMap_cons]
    rcases List.mem_cons.mp member with rfl | later
    · have silent : rest.flatMap f = [] := List.flatMap_eq_nil_iff.mpr fun z inside =>
        others z (List.mem_cons_of_mem _ inside) (fun same => fresh (same ▸ inside))
      rw [silent, List.append_nil]
    · rw [others y List.mem_cons_self (fun same => fresh (same ▸ later)), List.nil_append,
        ih nodup later (fun z inside => others z (List.mem_cons_of_mem _ inside))]

/-- Among the timer's actions an order finds its own. -/
theorem actionsFor_tick (cloid : ClientOrderId) (engine : StateMachineEngine) (nowNs : Int64) :
    actionsFor cloid (.ok (engine.tick nowNs).2) =
      (engine.orders[cloid]?.map fun sm => (sm.tick engine.timeoutNs nowNs).2).getD [] := by
  have own : ∀ entry ∈ engine.orders.toList, entry.2.cloid = entry.1 := fun entry member =>
    engine.keyed _ _ (Std.ExtTreeMap.mem_toList_iff_getElem?_eq_some.mp member)
  have nodup : engine.orders.toList.Nodup := by
    refine Std.ExtTreeMap.distinct_keys_toList.imp ?_
    rintro a b distinct rfl
    exact distinct Std.ReflOrd.compare_self
  have select : ∀ entry ∈ engine.orders.toList,
      (entry.2.tick engine.timeoutNs nowNs).2.filterMap
        ((fun pair => if pair.1 = cloid then some pair.2 else none) ∘
          fun action => (entry.2.cloid, action)) =
      if entry.1 = cloid then (entry.2.tick engine.timeoutNs nowNs).2 else [] := by
    intro entry member
    simp only [Function.comp_def, own entry member]
    split <;> simp
  simp only [actionsFor, StateMachineEngine.tick, List.filterMap_flatMap, List.filterMap_map]
  rw [List.flatMap_congr select]
  cases found : engine.orders[cloid]? with
  | none =>
    refine List.flatMap_eq_nil_iff.mpr fun entry member => if_neg ?_
    rintro rfl
    rw [Std.ExtTreeMap.mem_toList_iff_getElem?_eq_some.mp member] at found
    cases found
  | some sm =>
    have member := Std.ExtTreeMap.mem_toList_iff_getElem?_eq_some.mpr found
    rw [flatMap_eq_of_unique nodup member]
    · simp only [if_true, Option.map_some, Option.getD_some]
    · rintro ⟨other, stored⟩ inside different
      refine if_neg ?_
      rintro rfl
      have same := Std.ExtTreeMap.mem_toList_iff_getElem?_eq_some.mp inside
      rw [found] at same
      exact different (by rw [Option.some.inj same])

end TradingConnectivity.Lifecycle
