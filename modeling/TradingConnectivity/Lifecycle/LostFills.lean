import TradingConnectivity.Lifecycle.Fills

/-! # When fills are lost

An order that is closed while it waits drops its buffer. `received_applied_iff` says that this is
the only way to lose a fill: a run that ends with a terminal order has applied every received trade
exactly once if and only if the order's buffer was empty whenever it met one of the inputs that
discard it.
-/

namespace TradingConnectivity.Lifecycle

open Gateway (ClientOrderId)

/-- The inputs that end a waiting order without applying what it holds. -/
def discards : SmStatus → SmInput → Bool
  | .pending, .rejected _ _ => true
  | .pending, .cancelConfirmed _ => true
  | .unknownStatus, .cancelConfirmed _ => true
  | .unknownStatus, .statusCheckResult (.cancelled _) _ => true
  | .unknownStatus, .statusCheckResult (.rejected _) _ => true
  | .unknownStatus, .statusCheckResult (.expired _) _ => true
  | .unknownStatus, .statusCheckResult .notFound _ => true
  | _, _ => false

/-- Every reported trade was applied by exactly one of the emitted fills, and each emitted fill
belongs to a trade of its own among those examined. -/
def AppliedOnce (reports examined : List Trade) (emitted : List BufferedFill) : Prop :=
  ∃ applied : List Trade, applied.map Trade.fill = emitted ∧
    (applied.map Trade.tradeId).Nodup ∧
    (∀ trade ∈ applied, trade ∈ examined.firstBy Trade.tradeId) ∧
    ∀ trade ∈ reports.firstBy Trade.tradeId, trade ∈ applied

/-- The order and the input it met, for each event it processed. -/
def met (sm : OrderSm) (input : SmInput) : List (OrderSm × SmInput) := [(sm, input)]

/-- No input ever discarded a fill. -/
def BufferKept (meetings : List (OrderSm × SmInput)) : Prop :=
  ∀ meeting ∈ meetings, discards meeting.1.status meeting.2 → meeting.1.bufferedFills = []

/-- Closing a waiting order is what discards its buffer. -/
private theorem discards_eq (status : SmStatus) (input : SmInput) :
    discards status input =
      match reaction status input with
      | .close _ _ => !status.isLive
      | _ => false := by
  unfold discards reaction
  cases input with
  | statusCheckResult outcome nowNs => cases status <;> cases outcome <;> rfl
  | _ => cases status <;> rfl

private theorem received_eq (sm : OrderSm) (input : SmInput) :
    received sm input =
      match reaction sm.status input with
      | .report trade => [trade]
      | _ => [] := by
  unfold received reaction
  cases input with
  | statusCheckResult outcome nowNs => cases sm.status <;> cases outcome <;> rfl
  | _ => cases sm.status <;> rfl

private theorem bufferKept_append (first second : List (OrderSm × SmInput)) :
    BufferKept (first ++ second) ↔ BufferKept first ∧ BufferKept second :=
  List.forall_mem_append

/-- What a run says about its order: while the order runs nothing was discarded, afterwards its
buffer tells, and only the trades of the status check that ended it came by another way than an
execution report. -/
structure Kept (sm : OrderSm) (meetings : List (OrderSm × SmInput))
    (examined received : List Trade) : Prop where
  running : sm.status.isTerminal = false → BufferKept meetings ∧ examined = received
  ended : sm.status.isTerminal = true → (sm.bufferedFills = [] ↔ BufferKept meetings)
  origin : examined = received ∨ (∃ fetched, examined = received ++ fetched) ∧ sm.bufferedFills = []

namespace Kept

variable {sm after : OrderSm} {input : SmInput} {actions : List SmAction}
  {meetings : List (OrderSm × SmInput)} {trades reports : List Trade}

theorem start (cloid : ClientOrderId) (orderQty submittedNs : Int64) :
    Kept (.new cloid orderQty submittedNs) [] [] [] where
  running := fun _ => ⟨fun _ member => absurd member List.not_mem_nil, rfl⟩
  ended := by rintro ⟨⟩
  origin := .inl rfl

/-- The last input decides whether a buffer was ever discarded. -/
private theorem bufferKept_met (kept : Kept sm meetings trades reports)
    (running : sm.status.isTerminal = false) (input : SmInput) :
    BufferKept (meetings ++ met sm input) ↔
      (discards sm.status input → sm.bufferedFills = []) := by
  rw [bufferKept_append, and_iff_right (kept.running running).1]
  exact List.forall_mem_singleton

/-- An input that discards nothing and fetches no trades. -/
theorem harmless (kept : Kept sm meetings trades reports)
    (running : sm.status.isTerminal = false) (safe : discards sm.status input = false)
    (quiet : examined sm input = received sm input)
    (empty : after.status.isTerminal = true → after.bufferedFills = []) :
    Kept after (meetings ++ met sm input) (trades ++ examined sm input)
      (reports ++ received sm input) := by
  have all : BufferKept (meetings ++ met sm input) :=
    (kept.bufferKept_met running input).mpr (by rw [safe]; rintro ⟨⟩)
  have equal : trades ++ examined sm input = reports ++ received sm input := by
    rw [(kept.running running).2, quiet]
  exact ⟨fun _ => ⟨all, equal⟩, fun ended => iff_of_true (empty ended) all, .inl equal⟩

theorem transition (kept : Kept sm meetings trades reports)
    (running : sm.status.isTerminal = false) (live : sm.status.isLive → sm.bufferedFills = [])
    (step : Transition sm input after actions) :
    Kept after (meetings ++ met sm input) (trades ++ examined sm input)
      (reports ++ received sm input) := by
  have discarded := discards_eq sm.status input
  have examined := examined_eq sm input
  have received := received_eq sm input
  have stays (ended : sm.status.isTerminal = true) : sm.bufferedFills = [] := by
    rw [running] at ended
    cases ended
  cases step with
  | acknowledged reacts =>
    rw [reacts] at discarded examined received
    exact kept.harmless running discarded (examined.trans received.symm) fun _ => rfl
  | duplicate reacts known =>
    rw [reacts] at discarded examined received
    exact kept.harmless running discarded (examined.trans received.symm) stays
  | buffered reacts unseen waiting =>
    rw [reacts] at discarded examined received
    refine kept.harmless running discarded (examined.trans received.symm) fun ended => ?_
    exact absurd (running.symm.trans ended) Bool.false_ne_true
  | filled reacts unseen isLive =>
    rw [reacts] at discarded examined received
    exact kept.harmless running discarded (examined.trans received.symm) fun _ => live isLive
  | fetched reacts =>
    rename_i exchangeId trades'
    rw [reacts] at discarded examined received
    have all := (kept.bufferKept_met running input).mpr (by rw [discarded]; rintro ⟨⟩)
    refine ⟨by rintro ⟨⟩, fun _ => iff_of_true rfl all, .inr ⟨⟨trades', ?_⟩, rfl⟩⟩
    rw [examined, received, (kept.running running).2, List.append_nil]
  | closed reacts =>
    rename_i target action
    have terminal := reaction_close_terminal reacts
    rw [reacts] at discarded examined received
    refine ⟨fun open_ => absurd (terminal.symm.trans open_) (by decide), fun _ => ?_, .inl ?_⟩
    · rw [kept.bufferKept_met running input, discarded]
      change sm.bufferedFills = [] ↔ _
      cases isLive : sm.status.isLive with
      | true => exact iff_of_true (live isLive) (by rintro ⟨⟩)
      | false => exact ⟨fun empty _ => empty, fun holds => holds rfl⟩
    · rw [examined, received, (kept.running running).2]
  | retried reacts =>
    rw [reacts] at discarded examined received
    exact kept.harmless running discarded (examined.trans received.symm) stays
  | unhandled reacts =>
    rw [reacts] at discarded examined received
    exact kept.harmless running discarded (examined.trans received.symm) stays

/-- Every event keeps the account of a run whose live orders hold no fill. -/
theorem move (kept : Kept sm meetings trades reports)
    (live : sm.status.isLive → sm.bufferedFills = []) {event : OrderEvent}
    (moves : Moves sm event after actions) :
    Kept after (meetings ++ observeOrder met ⟨sm, event, actions⟩)
      (trades ++ observeOrder examined ⟨sm, event, actions⟩)
      (reports ++ observeOrder received ⟨sm, event, actions⟩) := by
  cases moves with
  | ended terminal => simpa only [observeOrder_ended terminal, List.append_nil] using kept
  | processed running step =>
    simp only [observeOrder_process running]
    exact kept.transition running live step
  | waited running => simpa only [observeOrder_tick, List.append_nil] using kept
  | late pending =>
    have now := kept.running (by rw [pending]; rfl)
    simp only [observeOrder_tick, List.append_nil]
    exact ⟨fun _ => now, by rintro ⟨⟩, .inl now.2⟩

/-- What a whole run says about its order. -/
theorem run (timeoutNs : Int64) (cloid : ClientOrderId) (orderQty submittedNs : Int64)
    (ops : List EngineOp) :
    let past := orderHistory timeoutNs cloid orderQty submittedNs ops
    Kept (lastState timeoutNs cloid orderQty submittedNs ops) (past.flatMap (observeOrder met))
      (past.flatMap (observeOrder examined)) (past.flatMap (observeOrder received)) := by
  refine ((orderMachine timeoutNs).history_induction (.new cloid orderQty submittedNs)
    (P := fun past sm =>
      (∃ applied held, Ledger sm (past.flatMap (observeOrder examined))
        (emittedFills (past.flatMap (·.output))) applied held) ∧
      Kept sm (past.flatMap (observeOrder met)) (past.flatMap (observeOrder examined))
        (past.flatMap (observeOrder received)))
    ⟨⟨[], [], .start cloid orderQty submittedNs⟩, start cloid orderQty submittedNs⟩ ?_
    (eventsFor cloid ops)).2
  rintro past state event ⟨⟨applied, held, ledger⟩, kept⟩
  simp only [List.flatMap_append, List.flatMap_singleton, emittedFills_append]
  have moves := orderMachine_moves timeoutNs state event
  exact ⟨ledger.move moves, kept.move ledger.live moves⟩

end Kept

/-- All received trades were applied if and only if none is left in the buffer. -/
theorem Kept.appliedOnce_iff {sm : OrderSm} {meetings : List (OrderSm × SmInput)}
    {trades reports : List Trade} {emitted : List BufferedFill} {applied held : List Trade}
    (kept : Kept sm meetings trades reports) (ledger : Ledger sm trades emitted applied held) :
    AppliedOnce reports trades emitted ↔ sm.bufferedFills = [] := by
  constructor
  · rintro ⟨accounted, fills, _, _, complete⟩
    by_contra holding
    have silent : emitted = [] := ledger.one_sided.resolve_right holding
    have same : trades = reports := kept.origin.resolve_right fun other => holding other.2
    have nothing : accounted = [] := List.map_eq_nil_iff.mp (fills.trans silent)
    have none : reports.firstBy Trade.tradeId = [] :=
      List.eq_nil_iff_forall_not_mem.mpr fun trade member =>
        absurd (nothing ▸ complete trade member) List.not_mem_nil
    have once := ledger.once
    rw [same, none] at once
    have empty : held = [] := (List.append_eq_nil_iff.mp once.eq_nil).2
    exact holding (by rw [← ledger.held_eq, empty, List.map_nil])
  · intro empty
    have none : held = [] := List.map_eq_nil_iff.mp (ledger.held_eq.trans empty)
    have once := ledger.once
    rw [none, List.append_nil] at once
    refine ⟨applied, ledger.applied_eq, (once.map _).nodup_iff.mpr (List.nodup_firstBy _),
      fun trade member => once.mem_iff.mp member, ?_⟩
    intro trade member
    apply once.mem_iff.mpr
    rcases kept.origin with same | ⟨⟨fetched, split⟩, _⟩
    · exact same ▸ member
    · rw [split, List.firstBy_append]
      exact List.mem_append_left _ member

/-- Every run that ends an order applies each trade received for it exactly once, if and only if
the order held no fill whenever it met an input that discards its buffer. -/
theorem received_applied_iff (engine : StateMachineEngine) (cloid : ClientOrderId)
    (orderQty submittedNs : Int64) {ops : List EngineOp}
    (lifetime : ∀ op ∈ ops, op.Spares cloid) :
    let past := engineMachine.history (engine.track cloid orderQty submittedNs) ops
    ((engineMachine.final (engine.track cloid orderQty submittedNs) ops).isTracked cloid = false →
        AppliedOnce (past.flatMap (observe received cloid)) (past.flatMap (observe examined cloid))
          (runFills cloid past)) ↔
      BufferKept (past.flatMap (observe met cloid)) := by
  intro past
  obtain ⟨applied, held, ledger⟩ := ledger_of_run engine cloid orderQty submittedNs lifetime
  have kept := Kept.run engine.timeoutNs cloid orderQty submittedNs ops
  simp only [← observe_refines engine orderQty submittedNs _ lifetime] at kept
  rw [isTracked_final engine orderQty submittedNs lifetime]
  cases ended : (lastState engine.timeoutNs cloid orderQty submittedNs ops).status.isTerminal with
  | false => exact iff_of_true (by rintro ⟨⟩) (kept.running ended).1
  | true =>
    rw [← kept.ended ended, ← kept.appliedOnce_iff ledger]
    exact ⟨fun holds => holds rfl, fun holds _ => holds⟩

/-- A fill, then a cancel confirmation, and no acknowledgement: the fill is never applied. -/
theorem received_not_applied :
    let ops : List EngineOp :=
      [.process ⟨"a"⟩ (.fillReceived ⟨1, 40, 100⟩ 1), .process ⟨"a"⟩ (.cancelConfirmed 2)]
    let start := (StateMachineEngine.withTimeoutNs 5).track ⟨"a"⟩ 100 0
    let past := engineMachine.history start ops
    (engineMachine.final start ops).isTracked ⟨"a"⟩ = false ∧
      ¬AppliedOnce (past.flatMap (observe received ⟨"a"⟩)) (past.flatMap (observe examined ⟨"a"⟩))
        (runFills ⟨"a"⟩ past) := by
  intro ops start past
  have reports : past.flatMap (observe received ⟨"a"⟩) = [⟨1, 40, 100⟩] := by decide
  have silent : runFills ⟨"a"⟩ past = [] := by decide
  refine ⟨by decide, ?_⟩
  rw [reports, silent]
  rintro ⟨applied, fills, _, _, complete⟩
  have nothing : applied = [] := List.map_eq_nil_iff.mp fills
  exact absurd (nothing ▸ complete ⟨1, 40, 100⟩ (by decide)) List.not_mem_nil

/-- An acknowledgement in between saves the fill. -/
theorem received_applied_iff_acknowledged :
    let ops : List EngineOp :=
      [.process ⟨"a"⟩ (.fillReceived ⟨1, 40, 100⟩ 1), .process ⟨"a"⟩ (.acknowledged 9 2),
        .process ⟨"a"⟩ (.cancelConfirmed 3)]
    let start := (StateMachineEngine.withTimeoutNs 5).track ⟨"a"⟩ 100 0
    let past := engineMachine.history start ops
    (engineMachine.final start ops).isTracked ⟨"a"⟩ = false ∧
      AppliedOnce (past.flatMap (observe received ⟨"a"⟩)) (past.flatMap (observe examined ⟨"a"⟩))
        (runFills ⟨"a"⟩ past) := by
  intro ops start past
  have ended : (engineMachine.final start ops).isTracked ⟨"a"⟩ = false := by decide
  have kept : BufferKept (past.flatMap (observe met ⟨"a"⟩)) := by
    unfold BufferKept
    decide
  exact ⟨ended, (received_applied_iff (.withTimeoutNs 5) ⟨"a"⟩ 100 0
    (by simp [ops, EngineOp.Spares])).mpr kept ended⟩

end TradingConnectivity.Lifecycle
