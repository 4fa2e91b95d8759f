import TradingConnectivity.Lifecycle.OrderRun

/-! # Where the fills of an order go

Every trade an order examines is applied, held back in the buffer, or recognised as a repetition.
The ledger of a run makes this exact: `applied` and `held` together are the first occurrences of
the trade ids examined so far, the emitted fills are the applied trades and the buffer the held
ones. It follows that no trade is applied twice and that quantities are conserved in every run, and
that fills are lost exactly when an order is closed with a filled buffer.
-/

namespace TradingConnectivity.Lifecycle

open Gateway (ClientOrderId)

/-- The trades of an input that an order compares with those it has seen: an execution report's,
and those of a status check that is consulted. -/
def examined (sm : OrderSm) : SmInput → List Trade
  | .fillReceived trade _ => [trade]
  | .statusCheckResult (.filled _ fills) _ => if sm.status = .unknownStatus then fills else []
  | _ => []

/-- The trade of an execution report. -/
def received (_ : OrderSm) : SmInput → List Trade
  | .fillReceived trade _ => [trade]
  | _ => []

def SmAction.fill? : SmAction → Option BufferedFill
  | .applyFill fillQty fillPrice => some ⟨fillQty, fillPrice⟩
  | _ => none

/-- The fills a list of actions applies. -/
def emittedFills (actions : List SmAction) : List BufferedFill := actions.filterMap SmAction.fill?

@[simp] theorem emittedFills_append (first second : List SmAction) :
    emittedFills (first ++ second) = emittedFills first ++ emittedFills second :=
  List.filterMap_append

@[simp] theorem emittedFills_fills (fills : List BufferedFill) :
    emittedFills (fills.map BufferedFill.action) = fills := by
  simp [emittedFills, List.filterMap_map, Function.comp_def, BufferedFill.action, SmAction.fill?]

@[simp] theorem emittedFills_applyAck (exchangeId : UInt64) (rest : List SmAction) :
    emittedFills (.applyAck exchangeId :: rest) = emittedFills rest := rfl

@[simp] theorem emittedFills_nil : emittedFills [] = [] := rfl

@[simp] theorem emittedFills_ignored : emittedFills [.ignored] = [] := rfl

@[simp] theorem emittedFills_action (fill : BufferedFill) :
    emittedFills [fill.action] = [fill] := rfl

/-! ## Reactions and trades -/

/-- The trades an order examines, by its reaction. -/
theorem examined_eq (sm : OrderSm) (input : SmInput) :
    examined sm input =
      match reaction sm.status input with
      | .report trade => [trade]
      | .fetch _ trades => trades
      | _ => [] := by
  unfold examined reaction
  cases input with
  | statusCheckResult outcome nowNs => cases sm.status <;> cases outcome <;> rfl
  | _ => cases sm.status <;> rfl

private theorem emittedFills_close {status target : SmStatus} {input : SmInput} {action : SmAction}
    (reacts : reaction status input = .close target action) : emittedFills [action] = [] := by
  rcases reaction_close_cases reacts with ⟨_, rfl⟩ | ⟨_, _, rfl⟩ | ⟨_, rfl⟩ <;> rfl

/-- After an acknowledgement an order no longer waits. -/
theorem OrderSm.acknowledgedState_status (sm : OrderSm) :
    sm.acknowledgedState.status = .filled ∨ sm.acknowledgedState.status = .partiallyFilled ∨
      sm.acknowledgedState.status = .new := by
  simp only [OrderSm.acknowledgedState]
  split
  · exact .inl rfl
  · split
    · exact .inr (.inl rfl)
    · exact .inr (.inr rfl)

/-- After a fill an order does not wait either. -/
theorem OrderSm.filledState_status (sm : OrderSm) (trade : Trade) :
    (sm.filledState trade).status = .filled ∨
      (sm.filledState trade).status = .partiallyFilled := by
  simp only [OrderSm.filledState]
  split
  · exact .inl rfl
  · exact .inr rfl

/-! ## The ledger of a run -/

/-- The trades examined so far, split into those applied and those held back. -/
structure Ledger (sm : OrderSm) (past : List Trade) (emitted : List BufferedFill)
    (applied held : List Trade) : Prop where
  applied_eq : applied.map Trade.fill = emitted
  held_eq : held.map Trade.fill = sm.bufferedFills
  once : (applied ++ held).Perm (past.firstBy Trade.tradeId)
  seen : ∀ id, id ∈ sm.seenTradeIds ↔ id ∈ past.map Trade.tradeId
  filled : sm.filledQty = totalQty emitted
  live : sm.status.isLive → sm.bufferedFills = []
  waiting : sm.status = .pending ∨ sm.status = .unknownStatus → emitted = []
  one_sided : emitted = [] ∨ sm.bufferedFills = []

namespace Ledger

variable {sm after : OrderSm} {input : SmInput} {actions : List SmAction} {past : List Trade}
  {emitted : List BufferedFill} {applied held : List Trade}

theorem start (cloid : ClientOrderId) (totalQty submittedNs : Int64) :
    Ledger (.new cloid totalQty submittedNs) [] [] [] [] where
  applied_eq := rfl
  held_eq := rfl
  once := .refl _
  seen := by simp [OrderSm.new]
  filled := rfl
  live := fun _ => rfl
  waiting := fun _ => rfl
  one_sided := .inl rfl

/-- An input that brings no trade and emits no fill changes no column. -/
theorem quiet (ledger : Ledger sm past emitted applied held) {trades : List Trade}
    (none : trades = []) (silent : emittedFills actions = []) :
    Ledger sm (past ++ trades) (emitted ++ emittedFills actions) applied held := by
  rw [none, silent, List.append_nil, List.append_nil]
  exact ledger

/-- A trade that was seen before changes no column. -/
theorem repeated (ledger : Ledger sm past emitted applied held) {trade : Trade}
    (known : trade.tradeId ∈ sm.seenTradeIds) :
    Ledger sm (past ++ [trade]) emitted applied held := by
  have before := (ledger.seen _).mp known
  refine { ledger with once := ?_, seen := ?_ }
  · rw [List.firstBy_append, List.freshBy_singleton, if_pos before, List.append_nil]
    exact ledger.once
  · intro id
    rw [ledger.seen, List.map_append, List.mem_append]
    constructor
    · exact .inl
    · rintro (earlier | now)
      · exact earlier
      · rwa [List.mem_singleton.mp now]

/-- A trade with a new id is the only new first occurrence. -/
private theorem firstBy_unseen (ledger : Ledger sm past emitted applied held) {trade : Trade}
    (unseen : trade.tradeId ∉ sm.seenTradeIds) :
    (past ++ [trade]).firstBy Trade.tradeId = past.firstBy Trade.tradeId ++ [trade] := by
  have new : trade.tradeId ∉ past.map Trade.tradeId := fun before =>
    unseen ((ledger.seen _).mpr before)
  rw [List.firstBy_append, List.freshBy_singleton, if_neg new]

private theorem seen_insert (ledger : Ledger sm past emitted applied held) (trade : Trade)
    (id : UInt64) :
    id ∈ insert trade.tradeId sm.seenTradeIds ↔ id ∈ (past ++ [trade]).map Trade.tradeId := by
  simp only [Finset.mem_insert, ledger.seen, List.map_append, List.map_cons, List.map_nil,
    List.mem_append, List.mem_singleton, Or.comm]

/-- An acknowledgement applies what was held. -/
theorem acknowledge (ledger : Ledger sm past emitted applied held)
    (waiting : sm.status = .pending ∨ sm.status = .unknownStatus) :
    Ledger sm.acknowledgedState past (emitted ++ sm.bufferedFills) (applied ++ held) [] := by
  have none := ledger.waiting waiting
  refine ⟨?_, rfl, ?_, ledger.seen, ?_, fun _ => rfl, ?_, .inr rfl⟩
  · rw [List.map_append, ledger.applied_eq, ledger.held_eq]
  · rw [List.append_nil]
    exact ledger.once
  · rw [totalQty_append, ← ledger.filled]
    rfl
  · rcases sm.acknowledgedState_status with status | status | status <;>
      rw [status] <;> simp

/-- A new trade is held back while the order waits. -/
private theorem hold (ledger : Ledger sm past emitted applied held) {trade : Trade}
    (unseen : trade.tradeId ∉ sm.seenTradeIds)
    (waiting : sm.status = .pending ∨ sm.status = .unknownStatus) :
    Ledger (sm.bufferedState trade) (past ++ [trade]) emitted applied (held ++ [trade]) := by
  have none := ledger.waiting waiting
  refine ⟨ledger.applied_eq, ?_, ?_, ledger.seen_insert trade, ledger.filled, ?_, fun _ => none,
    .inl none⟩
  · rw [List.map_append, ledger.held_eq]
    rfl
  · rw [ledger.firstBy_unseen unseen, ← List.append_assoc]
    exact ledger.once.append_right _
  · intro live
    change sm.status.isLive at live
    rcases waiting with status | status <;> rw [status] at live <;> cases live

/-- A new trade is applied while the order is live. -/
theorem apply (ledger : Ledger sm past emitted applied held) {trade : Trade}
    (unseen : trade.tradeId ∉ sm.seenTradeIds) (live : sm.status.isLive) :
    Ledger (sm.filledState trade) (past ++ [trade]) (emitted ++ [trade.fill])
      (applied ++ [trade]) [] := by
  have none := ledger.live live
  have empty : held = [] := List.map_eq_nil_iff.mp (ledger.held_eq.trans none)
  refine ⟨?_, none.symm, ?_, ledger.seen_insert trade, ?_, fun _ => none, ?_, .inr none⟩
  · rw [List.map_append, ledger.applied_eq]
    rfl
  · have once := ledger.once
    rw [empty, List.append_nil] at once
    rw [ledger.firstBy_unseen unseen, List.append_nil]
    exact once.append_right _
  · rw [totalQty_append, ← ledger.filled]
    simp [OrderSm.filledState, Trade.fill]
  · rcases sm.filledState_status trade with status | status <;> rw [status] <;> simp

/-- Fetched trades that are new are applied, and then what was held. -/
theorem fetch (ledger : Ledger sm past emitted applied held) (trades : List Trade) :
    Ledger (sm.fetchedState trades) (past ++ trades)
      (emitted ++ ((sm.freshTrades trades).map Trade.fill ++ sm.bufferedFills))
      (applied ++ sm.freshTrades trades ++ held) [] := by
  have fresh : sm.freshTrades trades = trades.freshBy Trade.tradeId (past.map Trade.tradeId) :=
    List.freshBy_congr (fun id => Finset.mem_toList.trans (ledger.seen id)) trades
  refine ⟨?_, rfl, ?_, ?_, ?_, fun _ => rfl, ?_, .inr rfl⟩
  · simp only [List.map_append, ledger.applied_eq, ledger.held_eq, List.append_assoc]
  · rw [List.append_nil, List.firstBy_append, ← fresh, List.append_assoc]
    have swapped : (sm.freshTrades trades ++ held).Perm (held ++ sm.freshTrades trades) :=
      List.perm_append_comm
    refine (swapped.append_left applied).trans ?_
    rw [← List.append_assoc]
    exact ledger.once.append_right _
  · intro id
    simp only [OrderSm.fetchedState, Finset.mem_union, ledger.seen, List.mem_toFinset,
      List.map_append, List.mem_append]
  · rw [totalQty_append, totalQty_append, ← ledger.filled]
    rfl
  · simp [OrderSm.fetchedState]

/-- Closing an order leaves every trade where it is. -/
theorem close (ledger : Ledger sm past emitted applied held) {target : SmStatus}
    (terminal : target.isTerminal) :
    Ledger { sm with status := target } past emitted applied held := by
  refine { ledger with live := ?_, waiting := ?_ }
  · intro live
    change target.isLive at live
    cases target <;> simp_all [SmStatus.isLive, SmStatus.isTerminal]
  · rintro (status | status)
    · change target = _ at status
      rw [status] at terminal
      cases terminal
    · change target = _ at status
      rw [status] at terminal
      cases terminal

/-- One input moves trades between the columns of the ledger and adds the new ones. -/
theorem transition (ledger : Ledger sm past emitted applied held)
    (step : Transition sm input after actions) :
    ∃ applied' held', Ledger after (past ++ examined sm input) (emitted ++ emittedFills actions)
      applied' held' := by
  cases step with
  | acknowledged reacts =>
    rw [examined_eq, reacts, List.append_nil, emittedFills_applyAck, emittedFills_fills]
    exact ⟨_, _, ledger.acknowledge (reaction_acknowledge_waits reacts)⟩
  | duplicate reacts known =>
    rw [examined_eq, reacts, emittedFills_ignored, List.append_nil]
    exact ⟨applied, held, ledger.repeated known⟩
  | buffered reacts unseen waiting =>
    rw [examined_eq, reacts, emittedFills_nil, List.append_nil]
    exact ⟨_, _, ledger.hold unseen waiting⟩
  | filled reacts unseen live =>
    rw [examined_eq, reacts, emittedFills_action]
    exact ⟨_, _, ledger.apply unseen live⟩
  | fetched reacts =>
    rw [examined_eq, reacts, emittedFills_applyAck, emittedFills_fills]
    exact ⟨_, _, ledger.fetch _⟩
  | closed reacts =>
    rw [examined_eq, reacts, emittedFills_close reacts, List.append_nil, List.append_nil]
    exact ⟨applied, held, ledger.close (reaction_close_terminal reacts)⟩
  | retried reacts => exact ⟨applied, held, ledger.quiet (by rw [examined_eq, reacts]) rfl⟩
  | unhandled reacts => exact ⟨applied, held, ledger.quiet (by rw [examined_eq, reacts]) rfl⟩

/-- Every event keeps a ledger; only processed inputs change it. -/
theorem move (ledger : Ledger sm past emitted applied held) {event : OrderEvent}
    (moves : Moves sm event after actions) :
    ∃ applied' held', Ledger after (past ++ observeOrder examined ⟨sm, event, actions⟩)
      (emitted ++ emittedFills actions) applied' held' := by
  cases moves with
  | ended terminal =>
    rw [observeOrder_ended terminal]
    exact ⟨applied, held, ledger.quiet rfl rfl⟩
  | processed running step =>
    rw [observeOrder_process running]
    exact ledger.transition step
  | waited running =>
    rw [observeOrder_tick]
    exact ⟨applied, held, ledger.quiet rfl rfl⟩
  | late pending =>
    rw [observeOrder_tick]
    have none := ledger.waiting (.inl pending)
    have same : Ledger { sm with status := .unknownStatus } past emitted applied held :=
      { ledger with live := (by rintro ⟨⟩), waiting := fun _ => none }
    exact ⟨applied, held, same.quiet rfl rfl⟩

/-- The ledger of a whole run. -/
theorem run (timeoutNs : Int64) (cloid : ClientOrderId) (totalQty submittedNs : Int64)
    (ops : List EngineOp) :
    ∃ applied held, Ledger (lastState timeoutNs cloid totalQty submittedNs ops)
      ((orderHistory timeoutNs cloid totalQty submittedNs ops).flatMap (observeOrder examined))
      (emittedFills
        ((orderHistory timeoutNs cloid totalQty submittedNs ops).flatMap (·.output)))
      applied held := by
  refine (orderMachine timeoutNs).history_induction (.new cloid totalQty submittedNs)
    (P := fun past sm => ∃ applied held, Ledger sm (past.flatMap (observeOrder examined))
      (emittedFills (past.flatMap (·.output))) applied held)
    ⟨[], [], start cloid totalQty submittedNs⟩ ?_ (eventsFor cloid ops)
  rintro past state event ⟨applied, held, ledger⟩
  simp only [List.flatMap_append, List.flatMap_singleton, emittedFills_append]
  exact ledger.move (orderMachine_moves timeoutNs state event)

end Ledger

/-- The fills applied by the calls of a run for one order. -/
def runFills (cloid : ClientOrderId) (past : List EngineEvent) : List BufferedFill :=
  emittedFills (past.flatMap (actionsIn cloid))

section runs

variable (engine : StateMachineEngine) (cloid : ClientOrderId) (orderQty submittedNs : Int64)
  {ops : List EngineOp}

/-- The ledger of a run, read off the engine's own history. -/
theorem ledger_of_run (lifetime : ∀ op ∈ ops, op.Spares cloid) :
    ∃ applied held,
      Ledger (lastState engine.timeoutNs cloid orderQty submittedNs ops)
        ((engineMachine.history (engine.track cloid orderQty submittedNs) ops).flatMap
          (observe examined cloid))
        (runFills cloid (engineMachine.history (engine.track cloid orderQty submittedNs) ops))
        applied held := by
  rw [observe_refines engine orderQty submittedNs examined lifetime, runFills,
    (engineMachine_refines engine orderQty submittedNs lifetime).2]
  exact Ledger.run engine.timeoutNs cloid orderQty submittedNs ops

/-- Conservation of fills over every run of the engine. The trades the order has seen are counted
once per id, with the quantity of the first occurrence; each is applied at most once, and what is
not applied is in the buffer. The order is tracked exactly while it is not terminal. -/
theorem fills_conserved (lifetime : ∀ op ∈ ops, op.Spares cloid) :
    let past := engineMachine.history (engine.track cloid orderQty submittedNs) ops
    let last := lastState engine.timeoutNs cloid orderQty submittedNs ops
    let firsts := (past.flatMap (observe examined cloid)).firstBy Trade.tradeId
    (engineMachine.final (engine.track cloid orderQty submittedNs) ops).orders[cloid]? =
        (if last.status.isTerminal then none else some last) ∧
      (∀ id, id ∈ last.seenTradeIds ↔ id ∈ firsts.map Trade.tradeId) ∧
      (∃ applied : List Trade, applied.map Trade.fill = runFills cloid past ∧
        (applied.map Trade.tradeId).Nodup ∧ ∀ trade ∈ applied, trade ∈ firsts) ∧
      last.filledQty + totalQty last.bufferedFills = totalQty (firsts.map Trade.fill) ∧
      last.filledQty = totalQty (runFills cloid past) ∧
      (last.status.isLive → last.bufferedFills = []) ∧
      (last.status = .pending ∨ last.status = .unknownStatus → last.filledQty = 0) := by
  intro past last firsts
  obtain ⟨applied, held, ledger⟩ := ledger_of_run engine cloid orderQty submittedNs lifetime
  have distinct : ((applied ++ held).map Trade.tradeId).Nodup :=
    (ledger.once.map _).nodup_iff.mpr (List.nodup_firstBy _)
  refine ⟨(engineMachine_refines engine orderQty submittedNs lifetime).1.stored, ?_,
    ⟨applied, ledger.applied_eq, ?_, ?_⟩, ?_, ledger.filled, ledger.live, ?_⟩
  · intro id
    rw [List.mem_map_firstBy]
    exact ledger.seen id
  · rw [List.map_append] at distinct
    exact distinct.of_append_left
  · intro trade member
    exact ledger.once.mem_iff.mp (List.mem_append_left held member)
  · rw [ledger.filled, ← ledger.held_eq, ← ledger.applied_eq, ← totalQty_append, ← List.map_append]
    exact totalQty_perm (ledger.once.map _)
  · intro waiting
    rw [ledger.filled, ledger.waiting waiting]
    rfl

end runs

/-- A fill that arrives before the acknowledgement and again after it is applied once. -/
theorem fills_conserved_redelivered :
    (lastState 5 ⟨"a"⟩ 10 0
        [.process ⟨"a"⟩ (.fillReceived ⟨1, 4, 100⟩ 1), .process ⟨"a"⟩ (.acknowledged 9 2),
          .process ⟨"a"⟩ (.fillReceived ⟨1, 4, 100⟩ 3)]).filledQty =
      totalQty (runFills ⟨"a"⟩ (engineMachine.history
        ((StateMachineEngine.withTimeoutNs 5).track ⟨"a"⟩ 10 0)
        [.process ⟨"a"⟩ (.fillReceived ⟨1, 4, 100⟩ 1), .process ⟨"a"⟩ (.acknowledged 9 2),
          .process ⟨"a"⟩ (.fillReceived ⟨1, 4, 100⟩ 3)])) :=
  (fills_conserved (.withTimeoutNs 5) ⟨"a"⟩ 10 0 (by simp [EngineOp.Spares])).2.2.2.2.1

end TradingConnectivity.Lifecycle
