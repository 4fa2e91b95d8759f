import TradingConnectivity.Machine.History
import TradingConnectivity.ToMathlib.FixedWidth

/-! # The reconciliation scheduler

The scheduler remembers which reconciliations are due. Its caller dispatches what `tick` reports
unless a request of the same kind is in flight, and reports back when a reconciliation finishes. A
reconnect that arrives while an earlier one is being reconciled leaves no mark of its own, so the
completion of the earlier one clears it.
-/

namespace TradingConnectivity.Reconcile

open Machine

inductive ReconcileRequest
  | startup
  | reconnect
  | periodic
deriving DecidableEq, Repr

structure ReconciliationScheduler where
  periodicIntervalNs : Int64
  startupPending : Bool
  reconnectPending : Bool
  /-- When the next periodic check is due; `none` until the timer is started. -/
  nextPeriodicNs : Option Int64
deriving DecidableEq, Repr

namespace ReconciliationScheduler

def new (periodicIntervalNs : Int64) : ReconciliationScheduler :=
  ⟨periodicIntervalNs, false, false, none⟩

def onStartup (sched : ReconciliationScheduler) (nowNs : Int64) : ReconciliationScheduler :=
  { sched with
    startupPending := true
    nextPeriodicNs := some (nowNs + sched.periodicIntervalNs) }

/-- Starts the periodic timer if startup has not. -/
def onReconnect (sched : ReconciliationScheduler) (nowNs : Int64) : ReconciliationScheduler :=
  { sched with
    reconnectPending := true
    nextPeriodicNs :=
      if sched.nextPeriodicNs.isNone then some (nowNs + sched.periodicIntervalNs)
      else sched.nextPeriodicNs }

/-- The requests that are due; they stay due until they are completed. -/
def tick (sched : ReconciliationScheduler) (nowNs : Int64) : List ReconcileRequest :=
  (if sched.startupPending then [.startup] else []) ++
    (if sched.reconnectPending then [.reconnect] else []) ++
    match sched.nextPeriodicNs with
    | none => []
    | some dueNs => if nowNs ≥ dueNs then [.periodic] else []

def onCompleted (sched : ReconciliationScheduler) (kind : ReconcileRequest) (nowNs : Int64) :
    ReconciliationScheduler :=
  match kind with
  | .startup => { sched with startupPending := false }
  | .reconnect => { sched with reconnectPending := false }
  | .periodic => { sched with nextPeriodicNs := some (nowNs + sched.periodicIntervalNs) }

/-- A reconnect request is reported whatever the time, as long as it is pending. -/
private theorem reconnect_mem_tick (sched : ReconciliationScheduler) (nowNs : Int64) :
    .reconnect ∈ sched.tick nowNs ↔ sched.reconnectPending = true := by
  have periodic : .reconnect ∉ (match sched.nextPeriodicNs with
      | none => []
      | some dueNs => if nowNs ≥ dueNs then [ReconcileRequest.periodic] else []) := by
    split
    · exact List.not_mem_nil
    · split <;> simp
  simp only [tick, List.mem_append, periodic, or_false]
  cases sched.startupPending <;> cases sched.reconnectPending <;> simp

end ReconciliationScheduler

/-! ## The caller -/

/-- The documented loop: the scheduler and the requests in flight. -/
structure Reconciling where
  sched : ReconciliationScheduler
  inFlight : List ReconcileRequest
deriving DecidableEq, Repr

/-- What happens to the caller. -/
inductive LoopEvent
  | onStartup (nowNs : Int64)
  | onReconnect (nowNs : Int64)
  /-- One iteration of the loop. -/
  | tick (nowNs : Int64)
  /-- A reconciliation that is in flight finishes. -/
  | finished (kind : ReconcileRequest) (nowNs : Int64)
deriving DecidableEq, Repr

/-- What the caller does. -/
inductive LoopAction
  | nothing
  | dispatched (requests : List ReconcileRequest)
  | completed (kind : ReconcileRequest)
deriving DecidableEq, Repr

def reconcileLoop : Machine Reconciling LoopEvent LoopAction where
  step caller
    | .onStartup nowNs => ({ caller with sched := caller.sched.onStartup nowNs }, .nothing)
    | .onReconnect nowNs => ({ caller with sched := caller.sched.onReconnect nowNs }, .nothing)
    | .tick nowNs =>
      let requests := (caller.sched.tick nowNs).filter (· ∉ caller.inFlight)
      ({ caller with inFlight := caller.inFlight ++ requests }, .dispatched requests)
    | .finished kind nowNs =>
      if kind ∈ caller.inFlight then
        (⟨caller.sched.onCompleted kind nowNs, caller.inFlight.filter (· ≠ kind)⟩, .completed kind)
      else (caller, .nothing)

/-- One event as a run records it. -/
abbrev Reconciled := Event Reconciling LoopEvent LoopAction

namespace Reconciled

def IsReconnect (event : Reconciled) : Prop := ∃ nowNs, event.input = .onReconnect nowNs

def Dispatches (event : Reconciled) : Prop :=
  ∃ requests, event.output = .dispatched requests ∧ .reconnect ∈ requests

def Completes (event : Reconciled) : Prop := event.output = .completed .reconnect

end Reconciled

/-- A reconnect request that was dispatched within these events has completed within them. -/
def Reconnected (events : List Reconciled) : Prop :=
  ∃ before dispatch between completion after,
    events = before ++ dispatch :: (between ++ completion :: after) ∧
      dispatch.Dispatches ∧ completion.Completes

/-- Every reconnect of the past is still reported, or a request dispatched after it has
completed. -/
def Answered (past : List Reconciled) (caller : Reconciling) : Prop :=
  ∀ before event after, past = before ++ event :: after → event.IsReconnect →
    (∀ nowNs, .reconnect ∈ caller.sched.tick nowNs) ∨ Reconnected after

/-- No reconnect arrives between the dispatch of a reconnect request and its completion. -/
def Undisturbed (events : List Reconciled) : Prop :=
  ∀ before dispatch between completion after,
    events = before ++ dispatch :: (between ++ completion :: after) →
      dispatch.Dispatches → completion.Completes → (∀ event ∈ between, ¬event.Completes) →
        ∀ event ∈ between, ¬event.IsReconnect

/-! ## One event -/

def Reconciling.Pending (caller : Reconciling) : Prop := caller.sched.reconnectPending = true

def Reconciling.Flying (caller : Reconciling) : Prop := .reconnect ∈ caller.inFlight

/-- What an event means for reconnect requests. -/
inductive Reconciled.Kind (event : Reconciled) (next : Reconciling) : Prop
  | quiet (other : ¬event.IsReconnect) (idle : ¬event.Dispatches) (silent : ¬event.Completes)
      (pending : next.Pending ↔ event.before.Pending)
      (flying : next.Flying ↔ event.before.Flying)
  | reconnect (own : event.IsReconnect) (idle : ¬event.Dispatches) (silent : ¬event.Completes)
      (pending : next.Pending) (flying : next.Flying ↔ event.before.Flying)
  | dispatch (other : ¬event.IsReconnect) (own : event.Dispatches) (silent : ¬event.Completes)
      (free : ¬event.before.Flying) (pending : next.Pending) (flying : next.Flying)
  | completion (other : ¬event.IsReconnect) (idle : ¬event.Dispatches) (own : event.Completes)
      (pending : ¬next.Pending) (flying : event.before.Flying) (landed : ¬next.Flying)

private theorem reconcile_kind (caller : Reconciling) (input : LoopEvent) :
    Reconciled.Kind ⟨caller, input, reconcileLoop.answer caller input⟩
      (reconcileLoop.next caller input) := by
  cases input with
  | onStartup nowNs => exact .quiet nofun nofun nofun Iff.rfl Iff.rfl
  | onReconnect nowNs => exact .reconnect ⟨nowNs, rfl⟩ nofun nofun rfl Iff.rfl
  | tick nowNs =>
    have requested : .reconnect ∈ (caller.sched.tick nowNs).filter (· ∉ caller.inFlight) ↔
        caller.Pending ∧ ¬caller.Flying := by
      rw [List.mem_filter, ReconciliationScheduler.reconnect_mem_tick, decide_eq_true_iff]
      rfl
    by_cases due : caller.Pending ∧ ¬caller.Flying
    · refine .dispatch nofun ⟨_, rfl, requested.mpr due⟩ nofun due.2 due.1 ?_
      exact List.mem_append_right _ (requested.mpr due)
    · refine .quiet nofun ?_ nofun Iff.rfl ?_
      · rintro ⟨_, ⟨⟩, member⟩
        exact due (requested.mp member)
      · refine List.mem_append.trans ⟨?_, .inl⟩
        rintro (flying | member)
        · exact flying
        · exact absurd (requested.mp member) due
  | finished kind nowNs =>
    by_cases flying : kind ∈ caller.inFlight
    · have next : reconcileLoop.next caller (.finished kind nowNs) =
          ⟨caller.sched.onCompleted kind nowNs, caller.inFlight.filter (· ≠ kind)⟩ :=
        congrArg Prod.fst (if_pos flying)
      have answer : reconcileLoop.answer caller (.finished kind nowNs) = .completed kind :=
        congrArg Prod.snd (if_pos flying)
      rw [next, answer]
      have stays (other : .reconnect ≠ kind) :
          ReconcileRequest.reconnect ∈ caller.inFlight.filter (· ≠ kind) ↔ caller.Flying := by
        rw [List.mem_filter, decide_eq_true_iff]
        exact and_iff_left other
      cases kind with
      | reconnect =>
        refine .completion nofun nofun rfl nofun flying ?_
        rw [Reconciling.Flying, List.mem_filter, decide_eq_true_iff]
        exact fun member => member.2 rfl
      | startup => exact .quiet nofun nofun nofun Iff.rfl (stays nofun)
      | periodic => exact .quiet nofun nofun nofun Iff.rfl (stays nofun)
    · have next : reconcileLoop.next caller (.finished kind nowNs) = caller :=
        congrArg Prod.fst (if_neg flying)
      have answer : reconcileLoop.answer caller (.finished kind nowNs) = .nothing :=
        congrArg Prod.snd (if_neg flying)
      rw [next, answer]
      exact .quiet nofun nofun nofun Iff.rfl Iff.rfl

/-! ## Runs -/

theorem Reconnected.append {events : List Reconciled} (reconnected : Reconnected events)
    (more : List Reconciled) : Reconnected (events ++ more) := by
  obtain ⟨before, dispatch, between, completion, after, rfl, dispatches, completes⟩ := reconnected
  refine ⟨before, dispatch, between, completion, after ++ more, ?_, dispatches, completes⟩
  simp only [List.append_assoc, List.cons_append]

private theorem Undisturbed.prefix {events more : List Reconciled}
    (undisturbed : Undisturbed (events ++ more)) : Undisturbed events := by
  rintro before dispatch between completion after rfl
  apply undisturbed before dispatch between completion (after ++ more)
  simp only [List.append_assoc, List.cons_append]

/-- What an undisturbed past says about the caller: a request in flight is pending and was
dispatched, and unless one is pending every reconnect has been reconciled. -/
structure Tracked (past : List Reconciled) (caller : Reconciling) : Prop where
  pending : caller.Flying → caller.Pending
  dispatched : caller.Flying → ∃ before dispatch after, past = before ++ dispatch :: after ∧
    dispatch.Dispatches ∧ ¬dispatch.IsReconnect ∧ ∀ event ∈ after, ¬event.Completes
  reconciled : ¬caller.Pending → ∀ before event after, past = before ++ event :: after →
    event.IsReconnect → Reconnected after

namespace Tracked

variable {past : List Reconciled} {event : Reconciled} {next : Reconciling}

/-- The dispatch of the request in flight stays the last one until it completes. -/
private theorem dispatched_concat (tracked : Tracked past event.before)
    (flying : event.before.Flying) (silent : ¬event.Completes) :
    ∃ before dispatch after, past ++ [event] = before ++ dispatch :: after ∧
      dispatch.Dispatches ∧ ¬dispatch.IsReconnect ∧ ∀ event ∈ after, ¬event.Completes := by
  obtain ⟨before, dispatch, after, rfl, dispatches, other, open_⟩ := tracked.dispatched flying
  refine ⟨before, dispatch, after ++ [event], ?_, dispatches, other, ?_⟩
  · simp only [List.append_assoc, List.cons_append]
  · intro later member
    rcases List.mem_append.mp member with inside | last
    · exact open_ later inside
    · rw [List.mem_singleton.mp last]
      exact silent

theorem step (tracked : Tracked past event.before) (kind : event.Kind next)
    (undisturbed : Undisturbed (past ++ [event])) : Tracked (past ++ [event]) next := by
  cases kind with
  | quiet other idle silent pending flying =>
    refine ⟨fun now => pending.mpr (tracked.pending (flying.mp now)),
      fun now => tracked.dispatched_concat (flying.mp now) silent, ?_⟩
    intro calm before reconnect after split own
    rcases Machine.concat_split split with ⟨rfl, -⟩ | ⟨inner, rfl, rfl⟩
    · exact absurd own other
    · exact (tracked.reconciled (calm ∘ pending.mpr) before reconnect inner rfl own).append _
  | reconnect own idle silent pending flying =>
    exact ⟨fun _ => pending, fun now => tracked.dispatched_concat (flying.mp now) silent,
      fun calm => absurd pending calm⟩
  | dispatch other own silent free pending flying =>
    exact ⟨fun _ => pending, fun _ => ⟨past, event, [], rfl, own, other, nofun⟩,
      fun calm => absurd pending calm⟩
  | completion other idle own pending flying landed =>
    refine ⟨fun now => absurd now landed, fun now => absurd now landed, ?_⟩
    intro _ front reconnect after split isReconnect
    obtain ⟨before, dispatch, between, rfl, dispatches, notReconnect, open_⟩ :=
      tracked.dispatched flying
    have calm := undisturbed before dispatch between event []
      (by simp only [List.append_assoc, List.cons_append]) dispatches own open_
    rcases Machine.concat_split split with ⟨rfl, -⟩ | ⟨inner, rfl, same⟩
    · exact absurd isReconnect other
    -- the reconnect stands before the dispatch, since nothing from it on is one
    rcases List.append_eq_append_iff.mp same with ⟨gap, rfl, rest⟩ | ⟨gap, rfl, rest⟩
    · cases gap with
      | nil =>
        obtain ⟨rfl, -⟩ := List.cons.inj rest
        exact absurd isReconnect notReconnect
      | cons first gap =>
        obtain ⟨rfl, rfl⟩ := List.cons.inj rest
        exact absurd isReconnect
          (calm reconnect (List.mem_append_right gap List.mem_cons_self))
    · cases gap with
      | nil =>
        obtain ⟨rfl, -⟩ := List.cons.inj rest
        exact absurd isReconnect notReconnect
      | cons first gap =>
        obtain ⟨rfl, rfl⟩ := List.cons.inj rest
        exact ⟨gap, dispatch, between, event, [], List.append_assoc gap _ _, dispatches, own⟩

theorem answered (tracked : Tracked past next) : Answered past next := by
  intro before event after split own
  by_cases pending : next.Pending
  · refine .inl fun nowNs => ?_
    exact (ReconciliationScheduler.reconnect_mem_tick next.sched nowNs).mpr pending
  · exact .inr (tracked.reconciled pending before event after split own)

end Tracked

private theorem tracked_of_undisturbed (intervalNs : Int64) (inputs : List LoopEvent) :
    Undisturbed (reconcileLoop.history ⟨.new intervalNs, []⟩ inputs) →
      Tracked (reconcileLoop.history ⟨.new intervalNs, []⟩ inputs)
        (reconcileLoop.final ⟨.new intervalNs, []⟩ inputs) := by
  let P (past : List Reconciled) (caller : Reconciling) : Prop :=
    Undisturbed past → Tracked past caller
  have empty : P [] ⟨.new intervalNs, []⟩ := fun _ =>
    ⟨nofun, nofun, fun _ before event after split =>
      absurd split.symm (List.append_ne_nil_of_right_ne_nil before (List.cons_ne_nil event after))⟩
  refine reconcileLoop.history_induction _ empty ?_ inputs
  intro past caller input tracked undisturbed
  exact (tracked undisturbed.prefix).step (reconcile_kind caller input) undisturbed

/-- While a reconnect request is in flight no other is dispatched. -/
theorem not_dispatches_of_flying {caller : Reconciling} {inputs : List LoopEvent}
    (flying : caller.Flying)
    (open_ : ∀ event : Reconciled, event ∈ reconcileLoop.history caller inputs →
      ¬event.Completes) :
    ∀ event : Reconciled, event ∈ reconcileLoop.history caller inputs → ¬event.Dispatches := by
  induction inputs generalizing caller with
  | nil => exact fun event member => absurd member List.not_mem_nil
  | cons input rest ih =>
    rw [Machine.history_cons, List.forall_mem_cons] at open_ ⊢
    obtain ⟨silent, open_⟩ := open_
    cases reconcile_kind caller input with
    | quiet other idle silent pending stays => exact ⟨idle, ih (stays.mpr flying) open_⟩
    | reconnect own idle silent pending stays => exact ⟨idle, ih (stays.mpr flying) open_⟩
    | dispatch other own silent free => exact absurd flying free
    | completion other idle own => exact absurd own silent

/-- Between a dispatch and its completion no other reconnect request is dispatched. -/
private theorem not_dispatches_between {caller : Reconciling} {inputs : List LoopEvent}
    {before between after : List Reconciled} {dispatch : Reconciled}
    (split : reconcileLoop.history caller inputs = before ++ dispatch :: (between ++ after))
    (dispatches : dispatch.Dispatches) (open_ : ∀ event ∈ between, ¬event.Completes) :
    ∀ event ∈ between, ¬event.Dispatches := by
  obtain ⟨earlier, input, later, -, -, rfl, rest⟩ := reconcileLoop.history_split split
  have flying : (reconcileLoop.next (reconcileLoop.final caller earlier) input).Flying := by
    cases reconcile_kind (reconcileLoop.final caller earlier) input with
    | quiet other idle => exact absurd dispatches idle
    | reconnect own idle => exact absurd dispatches idle
    | dispatch other own silent free pending flying => exact flying
    | completion other idle => exact absurd dispatches idle
  obtain ⟨first, second, -, rfl, -⟩ := Machine.history_eq_append _ rest.symm
  exact not_dispatches_of_flying flying open_

/-- A reconnect that nothing was dispatched after is not answered for by a caller without a pending
request. -/
theorem not_answered {before after : List Reconciled} {reconnect : Reconciled}
    {caller : Reconciling} (calm : ¬caller.Pending) (own : reconnect.IsReconnect)
    (idle : ∀ event ∈ after, ¬event.Dispatches) :
    ¬Answered (before ++ reconnect :: after) caller := by
  intro answered
  rcases answered before reconnect after rfl own with reported | reconnected
  · exact calm ((ReconciliationScheduler.reconnect_mem_tick caller.sched 0).mp (reported 0))
  · obtain ⟨front, dispatch, between, completion, rest, rfl, dispatches, -⟩ := reconnected
    exact idle dispatch (List.mem_append_right front List.mem_cons_self) dispatches

/-- Every reconnect is answered for at every moment of a run exactly if none arrives while the
request dispatched for an earlier one is in flight and completes. -/
theorem reconnects_answered_iff (intervalNs : Int64) (inputs : List LoopEvent) :
    (∀ earlier later, inputs = earlier ++ later →
      Answered (reconcileLoop.history ⟨.new intervalNs, []⟩ earlier)
        (reconcileLoop.final ⟨.new intervalNs, []⟩ earlier)) ↔
      Undisturbed (reconcileLoop.history ⟨.new intervalNs, []⟩ inputs) := by
  constructor
  · intro answered before dispatch between completion after split dispatches completes open_
      reconnect member own
    obtain ⟨first, second, rfl⟩ := List.append_of_mem member
    have alone := not_dispatches_between split dispatches open_
    -- at the completion nothing is pending, and no request was dispatched since the reconnect
    rw [← List.cons_append, ← List.append_assoc] at split
    obtain ⟨earlier, input, later, rfl, past, rfl, -⟩ := reconcileLoop.history_split split
    have whole := answered (earlier ++ [input]) later (List.append_cons earlier input later)
    rw [Machine.history_append, Machine.final_append, ← past, ← List.cons_append,
      ← List.append_assoc, List.append_assoc _ (reconnect :: second), List.cons_append] at whole
    cases reconcile_kind (reconcileLoop.final ⟨.new intervalNs, []⟩ earlier) input with
    | quiet other idle silent => exact silent completes
    | reconnect other idle silent => exact silent completes
    | dispatch other busy silent => exact silent completes
    | completion other idle own' pending =>
      refine not_answered pending own (fun event member => ?_) whole
      rcases List.mem_append.mp member with inside | last
      · exact alone event (List.mem_append_right first (List.mem_cons_of_mem _ inside))
      · rw [List.mem_singleton.mp last]
        exact idle
  · rintro undisturbed earlier later rfl
    rw [Machine.history_append] at undisturbed
    exact (tracked_of_undisturbed intervalNs earlier undisturbed.prefix).answered

/-- A reconnect that arrives while the first one's request is in flight is neither reported nor
reconciled once that request has completed. -/
theorem second_reconnect_forgotten :
    ¬Answered
      (reconcileLoop.history ⟨.new 300, []⟩
        [.onReconnect 0, .tick 1, .onReconnect 2, .finished .reconnect 3])
      (reconcileLoop.final ⟨.new 300, []⟩
        [.onReconnect 0, .tick 1, .onReconnect 2, .finished .reconnect 3]) := by
  intro answered
  rcases answered [_, _] _ [_] rfl ⟨2, rfl⟩ with reported | reconnected
  · exact absurd (reported 0) (by decide)
  · obtain ⟨front, dispatch, between, completion, after, split, -⟩ := reconnected
    have lengths := congrArg List.length split
    simp only [List.length_append, List.length_cons, List.length_nil] at lengths
    omega

end TradingConnectivity.Reconcile
