import TradingConnectivity.Machine.History
import TradingConnectivity.MarketData.Recovery

/-! # Complete futures streams

A futures stream names in every event the final id of the event before it, and its ids may jump in
between. The active validator follows the names, so it accepts any such stream. The rule that
bridges out of a snapshot compares ids instead, as if they had no holes: a snapshot that falls into
a jump, more than one below the next first id, reports a gap although no event is missing.
-/

namespace TradingConnectivity.MarketData

open Machine

/-- Every event names the one before it and begins after it. -/
structure PuChained (stream : List BookDelta) : Prop where
  ordered : ∀ e ∈ stream, e.firstUpdateId ≤ e.finalUpdateId
  chained : stream.IsChain fun e next =>
    next.prevUpdateId = e.finalUpdateId ∧ e.finalUpdateId < next.firstUpdateId

/-- The snapshot id lies between what the first event names and where the last one ends. -/
def SnapshotOn (snapshotId : UInt64) (stream : List BookDelta) : Prop :=
  ∃ first last, stream.head? = some first ∧ stream.getLast? = some last ∧
    first.prevUpdateId ≤ snapshotId ∧ snapshotId ≤ last.finalUpdateId

/-- The futures validator fed with the depth events of a stream. -/
def futuresMachine : Machine FuturesSequenceValidator BookDelta ValidateResult where
  step v delta := ((futures.validate v delta).2, (futures.validate v delta).1)

/-- From the snapshot on, no event is a gap and exactly the events past the snapshot apply. -/
def GapFree (validator : FuturesSequenceValidator) (snapshotId : UInt64)
    (stream : List BookDelta) : Prop :=
  ∀ event ∈ futuresMachine.history (validator.onSnapshot snapshotId) stream,
    (∀ expected actual lastValid, event.output ≠ .gap expected actual lastValid) ∧
      (event.output = .apply ↔ snapshotId < event.input.finalUpdateId)

/-- A snapshot with this id recovers every book whose buffer holds the stream. -/
def RecoversFrom (validator : FuturesSequenceValidator) (snapshotId : UInt64)
    (stream : List BookDelta) : Prop :=
  ∀ (snapshot : BookSnapshot) (book : OrderBook) (buf : RecoveryBuffer),
    snapshot.updateId = snapshotId → buf.events.map BufferedDelta.delta = stream →
      ∃ outcome, (applyFuturesSnapshot snapshot book validator buf).result = .ok outcome

/-- The first event past the snapshot, if there is one, begins at most one past it. -/
def JoinsSnapshot (snapshotId : UInt64) (stream : List BookDelta) : Prop :=
  ∀ e ∈ stream.find? (fun e => snapshotId < e.finalUpdateId),
    e.firstUpdateId.toNat ≤ snapshotId.toNat + 1

namespace PuChained

variable {stream rest : List BookDelta} {e next : BookDelta}

theorem tail (chain : PuChained (e :: rest)) : PuChained rest where
  ordered other member := chain.ordered other (List.mem_cons_of_mem _ member)
  chained := List.IsChain.of_cons chain.chained

private theorem link (chain : PuChained (e :: next :: rest)) :
    next.prevUpdateId = e.finalUpdateId ∧ e.finalUpdateId < next.firstUpdateId :=
  (List.isChain_cons_cons.mp chain.chained).1

/-- The final ids of a stream grow. -/
theorem final_lt (chain : PuChained (e :: rest)) :
    ∀ later ∈ rest, e.finalUpdateId < later.finalUpdateId := by
  induction rest generalizing e with
  | nil => exact fun later member => absurd member List.not_mem_nil
  | cons next rest ih =>
    have grows : e.finalUpdateId < next.finalUpdateId := by
      have after := chain.link.2
      have inside := chain.ordered next (List.mem_cons_of_mem _ List.mem_cons_self)
      rw [UInt64.lt_iff_toNat_lt] at after ⊢
      rw [UInt64.le_iff_toNat_le] at inside
      omega
    intro later member
    rcases List.mem_cons.mp member with rfl | further
    · exact grows
    · exact UInt64.lt_trans grows (ih chain.tail later further)

end PuChained

/-! ## Past the bridge -/

/-- An active validator applies the whole continuation of a stream. -/
theorem history_active {stream : List BookDelta} {e : BookDelta} (chain : PuChained (e :: stream))
    {validator : FuturesSequenceValidator} (active : validator.state = .active e.finalUpdateId) :
    ∀ event ∈ futuresMachine.history validator stream, event.output = .apply := by
  induction stream generalizing e validator with
  | nil => exact fun event member => absurd member List.not_mem_nil
  | cons next rest ih =>
    have follows : futuresPosition e.finalUpdateId next = .eq :=
      Std.compare_eq_iff_eq.mpr chain.link.1
    obtain ⟨validator', step, active'⟩ := futures_ordered.continues validator e.finalUpdateId next
      active follows
    have reached : futuresMachine.next validator next = validator' := congrArg Prod.snd step
    have answered : futuresMachine.answer validator next = .apply := congrArg Prod.fst step
    intro event member
    rw [history_cons, reached, answered] at member
    rcases List.mem_cons.mp member with rfl | later
    · rfl
    · exact ih chain.tail active' event later

/-- The same for the scan of buffered events. -/
private theorem scan_chained {events : List BufferedDelta} {e : BufferedDelta}
    (chain : PuChained ((e :: events).map BufferedDelta.delta)) :
    scan futuresPosition e.delta.finalUpdateId events = (events, []) := by
  induction events generalizing e with
  | nil => rfl
  | cons next rest ih =>
    have follows : futuresPosition e.delta.finalUpdateId next.delta = .eq :=
      Std.compare_eq_iff_eq.mpr chain.link.1
    simp only [scan, follows, ih chain.tail]

/-! ## The bridge -/

/-- Whether a stream joins is decided by its first event past the snapshot. -/
private theorem joinsSnapshot_cons_old {snapshotId : UInt64} {e : BookDelta} {rest : List BookDelta}
    (old : ¬snapshotId < e.finalUpdateId) :
    JoinsSnapshot snapshotId (e :: rest) ↔ JoinsSnapshot snapshotId rest := by
  rw [JoinsSnapshot, List.find?_cons_of_neg (by simpa using old), JoinsSnapshot]

private theorem joinsSnapshot_cons_past {snapshotId : UInt64} {e : BookDelta}
    {rest : List BookDelta}
    (past : snapshotId < e.finalUpdateId) :
    JoinsSnapshot snapshotId (e :: rest) ↔ e.firstUpdateId ≤ snapshotId + 1 := by
  have room := e.finalUpdateId.toNat_lt
  rw [UInt64.lt_iff_toNat_lt] at past
  rw [UInt64.le_iff_toNat_le, UInt64.toNat_succ (by omega), JoinsSnapshot,
    List.find?_cons_of_pos (by simpa [UInt64.lt_iff_toNat_lt] using past)]
  simp only [Option.mem_def, Option.some.injEq, forall_eq']

/-- From an event that bridges the snapshot on, everything is applied. -/
theorem gapFree_of_joins {e : BookDelta} {rest : List BookDelta} (chain : PuChained (e :: rest))
    (validator : FuturesSequenceValidator) {snapshotId : UInt64}
    (past : snapshotId < e.finalUpdateId) (joins : e.firstUpdateId ≤ snapshotId + 1) :
    GapFree validator snapshotId (e :: rest) := by
  obtain ⟨validator', step, active⟩ := futures_ordered.bridge _ snapshotId e rfl past joins
  have reached : futuresMachine.next (validator.onSnapshot snapshotId) e = validator' :=
    congrArg Prod.snd step
  have answered : futuresMachine.answer (validator.onSnapshot snapshotId) e = .apply :=
    congrArg Prod.fst step
  intro event member
  rw [history_cons, reached, answered] at member
  have applied : event.output = .apply ∧ snapshotId < event.input.finalUpdateId := by
    rcases List.mem_cons.mp member with rfl | later
    · exact ⟨rfl, past⟩
    · refine ⟨history_active chain active event later, ?_⟩
      have input := List.mem_map_of_mem (f := Event.input) later
      rw [history_inputs] at input
      exact UInt64.lt_trans past (chain.final_lt _ input)
  refine ⟨fun expected actual lastValid gap => ?_, fun _ => applied.2, fun _ => applied.1⟩
  exact absurd (applied.1.symm.trans gap) (by simp)

/-- An event that predates the snapshot changes nothing. -/
private theorem gapFree_cons_old {e : BookDelta} {rest : List BookDelta}
    (validator : FuturesSequenceValidator) {snapshotId : UInt64}
    (old : ¬snapshotId < e.finalUpdateId) :
    GapFree validator snapshotId (e :: rest) ↔ GapFree validator snapshotId rest := by
  have discarded : futures.validate (validator.onSnapshot snapshotId) e =
      (.discard, validator.onSnapshot snapshotId) := if_pos (UInt64.not_lt.mp old)
  have reached : futuresMachine.next (validator.onSnapshot snapshotId) e =
      validator.onSnapshot snapshotId := congrArg Prod.snd discarded
  have answered : futuresMachine.answer (validator.onSnapshot snapshotId) e = .discard :=
    congrArg Prod.fst discarded
  rw [GapFree, history_cons, reached, answered, List.forall_mem_cons]
  refine and_iff_right ⟨fun expected actual lastValid => by simp, fun wrong => ?_, old.elim⟩
  exact absurd wrong (by simp)

/-- A validator bridging from the snapshot reports no gap exactly when the stream joins it. -/
theorem gapFree_iff {stream : List BookDelta} (chain : PuChained stream)
    (validator : FuturesSequenceValidator) (snapshotId : UInt64) :
    GapFree validator snapshotId stream ↔ JoinsSnapshot snapshotId stream := by
  induction stream with
  | nil =>
    constructor
    · exact fun _ e missing => absurd missing (by simp)
    · exact fun _ event member => absurd member List.not_mem_nil
  | cons e rest ih =>
    by_cases past : snapshotId < e.finalUpdateId
    · rw [joinsSnapshot_cons_past past]
      constructor
      · intro free
        by_contra apart
        obtain ⟨validator', expected, actual, lastValid, step, -⟩ := futures_ordered.bridgeGap
          (validator.onSnapshot snapshotId) snapshotId e rfl past apart
        apply (free _ List.mem_cons_self).1 expected actual lastValid
        exact congrArg Prod.fst step
      · exact gapFree_of_joins chain validator past
    · rw [joinsSnapshot_cons_old past, gapFree_cons_old validator past, ih chain.tail]

/-- The replay from a snapshot leaves nothing over exactly when the stream joins it. -/
theorem scanFrom_chained {events : List BufferedDelta}
    (chain : PuChained (events.map BufferedDelta.delta)) (snapshotId : UInt64) :
    (scanFrom futuresPosition snapshotId (pastSnapshot snapshotId events)).2 = [] ↔
      JoinsSnapshot snapshotId (events.map BufferedDelta.delta) := by
  induction events with
  | nil =>
    constructor
    · exact fun _ e missing => absurd missing (by simp)
    · exact fun _ => rfl
  | cons e rest ih =>
    by_cases past : snapshotId < e.delta.finalUpdateId
    · have whole : pastSnapshot snapshotId (e :: rest) = e :: rest := by
        apply List.filter_eq_self.mpr
        intro other member
        apply decide_eq_true
        rcases List.mem_cons.mp member with rfl | later
        · exact past
        · exact UInt64.lt_trans past (chain.final_lt _ (List.mem_map_of_mem later))
      rw [whole, List.map_cons, joinsSnapshot_cons_past past]
      by_cases joins : e.delta.firstUpdateId ≤ snapshotId + 1
      · simp only [scanFrom, joins, if_true, scan_chained chain]
      · simp only [scanFrom, joins, if_false, reduceCtorEq]
    · have dropped : pastSnapshot snapshotId (e :: rest) = pastSnapshot snapshotId rest :=
        List.filter_cons_of_neg (by simpa using past)
      rw [dropped, List.map_cons, joinsSnapshot_cons_old past, ih chain.tail]

/-- A snapshot recovers the stream exactly when the stream joins it. -/
theorem recoversFrom_iff {stream : List BookDelta} (chain : PuChained stream)
    (validator : FuturesSequenceValidator) (snapshotId : UInt64) :
    RecoversFrom validator snapshotId stream ↔ JoinsSnapshot snapshotId stream := by
  constructor
  · intro recovers
    let events := stream.map fun delta => BufferedDelta.mk delta 0 0
    have holds : events.map BufferedDelta.delta = stream := by
      simp only [events, List.map_map, Function.comp_def, List.map_id']
    have recovered :=
      recovers ⟨snapshotId, [], []⟩ .new { RecoveryBuffer.new with events := events } rfl holds
    rw [← holds, ← scanFrom_chained (holds.symm ▸ chain)]
    by_contra left
    obtain ⟨outcome, success⟩ := recovered
    obtain ⟨⟨expected, actual, failure⟩, -⟩ := (applySnapshot_recovers futures_ordered
      ⟨snapshotId, [], []⟩ .new validator { RecoveryBuffer.new with events := events }).fails left
    exact absurd (success.symm.trans failure) (by simp)
  · rintro joins snapshot book buf rfl rfl
    exact ((applySnapshot_recovers futures_ordered snapshot book validator buf).succeeds
      ((scanFrom_chained chain snapshot.updateId).mpr joins)).1

/-- A complete stream survives a snapshot without a false gap, live and in recovery, exactly when
its first event past the snapshot begins at most one past it. -/
theorem futures_stream_gap_free_iff {stream : List BookDelta} (chain : PuChained stream)
    (validator : FuturesSequenceValidator) (snapshotId : UInt64) :
    (GapFree validator snapshotId stream ∧ RecoversFrom validator snapshotId stream) ↔
      JoinsSnapshot snapshotId stream := by
  rw [gapFree_iff chain, recoversFrom_iff chain, and_self_iff]

/-- Two events of one stream, with ids jumping from 110 to 115. -/
def jumpingStream : List BookDelta := [⟨102, 110, 100, [], []⟩, ⟨115, 120, 110, [], []⟩]

private theorem jumpingStream_chained : PuChained jumpingStream where
  ordered := by decide
  chained := .cons_cons (by decide) (.singleton _)

theorem futures_stream_gap_free_inside_event :
    GapFree .new 105 jumpingStream ∧ RecoversFrom .new 105 jumpingStream :=
  (futures_stream_gap_free_iff jumpingStream_chained .new 105).mpr
    ((joinsSnapshot_cons_past (by decide)).mpr (by decide))

/-- A snapshot taken right after the first event reports a gap before the second. -/
theorem futures_stream_false_gap :
    ¬∀ (stream : List BookDelta) (validator : FuturesSequenceValidator) (snapshotId : UInt64),
      PuChained stream → SnapshotOn snapshotId stream →
        GapFree validator snapshotId stream ∧ RecoversFrom validator snapshotId stream := by
  intro claimed
  obtain ⟨free, -⟩ := claimed jumpingStream .new 110 jumpingStream_chained
    ⟨_, _, rfl, rfl, by decide, by decide⟩
  exact (free ⟨⟨.bridging 110⟩, ⟨115, 120, 110, [], []⟩, .gap 110 110 110⟩
    (by exact List.mem_cons_of_mem _ List.mem_cons_self)).1 110 110 110 rfl

end TradingConnectivity.MarketData
