import TradingConnectivity.Normalize.Context
import TradingConnectivity.Shard.FuturesSymbol

/-! # One attempt at a recovery

A symbol that was never given a snapshot never asks for one (`waiting_forever`), and the shard
starts all of its symbols so. In a run of a symbol that has been seeded, every gap but the last is
followed by a recovery at once, and the last one is if the book does not end stale (`gaps_balance`):
at most one request for a snapshot is in vain.
-/

namespace TradingConnectivity.Shard

open MarketData

namespace FuturesEffect

def isGap : FuturesEffect → Bool
  | announce (.gapDetected _ _) _ => true
  | announce _ _ | fetchSnapshot _ | offerDelta => false

def isRecovery : FuturesEffect → Bool
  | announce (.bookRecovered _) _ => true
  | announce _ _ | fetchSnapshot _ | offerDelta => false

def isRequest : FuturesEffect → Bool
  | fetchSnapshot _ => true
  | announce _ _ | offerDelta => false

end FuturesEffect

namespace FuturesSymbolState

/-- The two announcements of a gap. -/
def gapEffects (expected actual : UInt64) (now : Int64) : List FuturesEffect :=
  [.announce (.gapDetected expected actual) now, .announce (.bookStale .sequenceGap) now]

/-- A symbol without a snapshot waits for one. -/
structure Waiting (state : FuturesSymbolState) : Prop where
  fresh : state.isStale = false
  awaiting : state.validator.state = .awaitingSnapshot

/-- A symbol with a book follows its stream. -/
structure Following (state : FuturesSymbolState) : Prop where
  fresh : state.isStale = false
  seeded : state.validator.state ≠ .awaitingSnapshot

/-- Everything that handling a depth event can do. -/
inductive Outcome (state : FuturesSymbolState) : FuturesSymbolState → List FuturesEffect → Prop
  | buffered (still : state.isStale = true ∨ state.Waiting) (recoveryBuf : RecoveryBuffer) :
      Outcome state { state with recoveryBuf } []
  | overflow (stale : state.isStale = true) (recoveryBuf : RecoveryBuffer)
      (reason : BookStaleReason) (ts : Int64) :
      Outcome state { state with recoveryBuf } [.announce (.bookStale reason) ts]
  | skipped {next : FuturesSymbolState} (before : state.Following)
      (after : next.isStale = false) : Outcome state next []
  | applied {next : FuturesSymbolState} (before : state.Following)
      (after : next.isStale = false) : Outcome state next [.offerDelta]
  | refused {next : FuturesSymbolState} (before : state.Following)
      (after : next.isStale = true) (expected actual : UInt64) (now : Int64) :
      Outcome state next (gapEffects expected actual now)
  | failed {next : FuturesSymbolState} (before : state.Following)
      (after : next.isStale = true) (expected actual : UInt64) (now : Int64) :
      Outcome state next (gapEffects expected actual now ++ [.fetchSnapshot now])
  | recovered {next : FuturesSymbolState} (before : state.Following)
      (after : next.isStale = false) (expected actual snapshotId : UInt64) (now : Int64) :
      Outcome state next (gapEffects expected actual now ++
        [.fetchSnapshot now, .announce (.bookRecovered snapshotId) now])

/-- Applying a snapshot clears the stale flag if it succeeds and leaves it if it fails. -/
theorem isStale_withRecovery (state : FuturesSymbolState) (snapshot : BookSnapshot) :
    (∀ outcome, (state.recovery snapshot).result = .ok outcome →
      (state.withRecovery snapshot).isStale = false) ∧
    (∀ e, (state.recovery snapshot).result = .error e →
      (state.withRecovery snapshot).isStale = state.isStale) := by
  have recovers := applySnapshot_recovers futures_ordered snapshot state.book state.validator
    state.recoveryBuf
  by_cases complete : (scanFrom futuresPosition snapshot.updateId
      (pastSnapshot snapshot.updateId state.recoveryBuf.events)).2 = []
  · obtain ⟨⟨outcome, succeeded⟩, fresh⟩ := recovers.succeeds complete
    refine ⟨fun _ _ => fresh, fun e failed => ?_⟩
    cases succeeded.symm.trans failed
  · obtain ⟨⟨expected, actual, failed⟩, same, -⟩ := recovers.fails complete
    refine ⟨fun outcome succeeded => ?_, fun _ _ => same⟩
    cases failed.symm.trans succeeded

/-- An attempt on a stale book succeeds or leaves it stale. -/
theorem attempt_cases {work : Work FuturesSymbolState FuturesEffect} (stale : work.state.isStale)
    (now : Int64) (fetched : Option BookSnapshot) :
    ((attempt now fetched work).state.isStale = true ∧
      (attempt now fetched work).effects = work.effects ++ [.fetchSnapshot now]) ∨
    ∃ snapshotId, (attempt now fetched work).state.isStale = false ∧
      (attempt now fetched work).effects = work.effects ++
        [.fetchSnapshot now, .announce (.bookRecovered snapshotId) now] := by
  cases fetched with
  | none => exact .inl ⟨stale, rfl⟩
  | some snapshot =>
    obtain ⟨ok, error⟩ := isStale_withRecovery work.state snapshot
    simp only [attempt, Work.emit_state]
    cases result : (work.state.recovery snapshot).result with
    | error e => exact .inl ⟨(error e result).trans stale, rfl⟩
    | ok outcome =>
      exact .inr ⟨outcome.snapshotId, ok outcome result, List.append_assoc ..⟩

private theorem onGap_outcome {state start : FuturesSymbolState} (before : start.Following)
    (expected actual : UInt64) (now : Int64) (fetched : Option BookSnapshot) :
    Outcome start (onGap expected actual now fetched ⟨state, []⟩).state
      (onGap expected actual now fetched ⟨state, []⟩).effects := by
  simp only [onGap]
  cases found : (state.circuit.check now).2 with
  | opened limit =>
    have after : (recordFailure now ⟨{ state with
        book := state.book.markStale .sequenceGap
        feedState := .recovering
        circuit := (state.circuit.check now).1 }, gapEffects expected actual now⟩).state.isStale =
      true := rfl
    simp only [Work.update_state, Work.emit_state, found]
    exact .refused before after expected actual now
  | closed =>
    have stale : (⟨{ state with
        book := state.book.markStale .sequenceGap
        feedState := .recovering
        circuit := (state.circuit.check now).1 }, gapEffects expected actual now⟩ :
      Work FuturesSymbolState FuturesEffect).state.isStale = true := rfl
    simp only [Work.update_state, Work.emit_state, found]
    rcases attempt_cases stale now fetched with ⟨after, effects⟩ | ⟨id, after, effects⟩
    · have outcome := Outcome.failed before after expected actual now
      rw [← effects] at outcome
      exact outcome
    · have outcome := Outcome.recovered before after expected actual id now
      rw [← effects] at outcome
      exact outcome

/-- What the handler does is one of the outcomes. -/
theorem handle_outcome (state : FuturesSymbolState) (input : FuturesInput) :
    Outcome state (machine.next state input) (machine.answer state input) := by
  change Outcome state (handle input ⟨state, []⟩).state (handle input ⟨state, []⟩).effects
  rw [handle]
  by_cases stale : state.isStale = true
  · simp only [stale, if_true, onStale]
    rcases state.recoveryBuf.push input.bd input.now input.encodedSize with ⟨result, recoveryBuf⟩
    cases result with
    | accepted => exact .buffered (.inl stale) recoveryBuf
    | overflow reason => exact .overflow stale recoveryBuf.clear (overflowReason reason) input.now
  have fresh : state.isStale = false := Bool.eq_false_iff.mpr stale
  by_cases awaiting : state.validator.state = .awaitingSnapshot
  · have waiting : state.Waiting := ⟨fresh, awaiting⟩
    simp only [fresh, awaiting, if_true, onAwaiting, Bool.false_eq_true, if_false]
    rcases state.recoveryBuf.push input.bd input.now input.encodedSize with ⟨result, recoveryBuf⟩
    cases result with
    | accepted => exact .buffered (.inr waiting) recoveryBuf
    | overflow reason => exact .buffered (.inr waiting) recoveryBuf.clear
  have following : state.Following := ⟨fresh, awaiting⟩
  simp only [fresh, awaiting, Bool.false_eq_true, if_false, onFresh]
  rcases state.validation input.bd with ⟨result, validator⟩
  cases result with
  | apply => exact .applied following fresh
  | discard => exact .skipped following fresh
  | buffering => exact .skipped following fresh
  | gap expected actual lastValid =>
    exact onGap_outcome following expected actual input.now input.fetched

/-! ## Runs -/

/-- In one step the gaps are the recoveries, but for the stale flag. -/
theorem gaps_step {state next : FuturesSymbolState} {effects : List FuturesEffect}
    (outcome : Outcome state next effects) :
    effects.countP (·.isGap) + state.isStale.toNat =
        effects.countP (·.isRecovery) + next.isStale.toNat ∧
      effects.countP (·.isRequest) ≤ effects.countP (·.isGap) := by
  cases outcome with
  | buffered still recoveryBuf => exact ⟨rfl, le_rfl⟩
  | overflow stale recoveryBuf reason ts => exact ⟨rfl, le_rfl⟩
  | skipped before after | applied before after | refused before after =>
    rw [before.fresh, after]
    exact ⟨rfl, Nat.zero_le _⟩
  | failed before after | recovered before after =>
    rw [before.fresh, after]
    exact ⟨rfl, le_rfl⟩

/-- In a run every gap is recovered from at once, except for a last one that leaves the book stale;
and at most one request for a snapshot is in vain. There are gaps and recoveries only from a start
that follows its stream already, and the shard never brings a symbol into such a state
(`books_stay_empty`). -/
theorem gaps_balance (start : FuturesSymbolState) (inputs : List FuturesInput) :
    let effects := machine.effects start inputs
    effects.countP (·.isGap) + start.isStale.toNat =
        effects.countP (·.isRecovery) + (machine.final start inputs).isStale.toNat ∧
      effects.countP (·.isRequest) ≤ effects.countP (·.isRecovery) + 1 := by
  suffices counted : (machine.effects start inputs).countP (·.isGap) + start.isStale.toNat =
        (machine.effects start inputs).countP (·.isRecovery) +
          (machine.final start inputs).isStale.toNat ∧
      (machine.effects start inputs).countP (·.isRequest) ≤
        (machine.effects start inputs).countP (·.isGap) by
    obtain ⟨gaps, requests⟩ := counted
    have atMostOne := (machine.final start inputs).isStale.toNat_le
    exact ⟨gaps, by omega⟩
  induction inputs generalizing start with
  | nil => exact ⟨rfl, le_rfl⟩
  | cons input rest ih =>
    obtain ⟨gaps, requests⟩ := gaps_step (handle_outcome start input)
    obtain ⟨later, others⟩ := ih (machine.next start input)
    simp only [Machine.effects_cons, List.countP_append, Machine.final_cons]
    omega

/-- Only the recovery buffer may change. -/
def SameBut (state next : FuturesSymbolState) : Prop :=
  ∃ recoveryBuf, next = { state with recoveryBuf }

theorem waiting_step {state next : FuturesSymbolState} {effects : List FuturesEffect}
    (outcome : Outcome state next effects) (waiting : state.Waiting) :
    state.SameBut next ∧ effects = [] := by
  cases outcome with
  | buffered still recoveryBuf => exact ⟨⟨recoveryBuf, rfl⟩, rfl⟩
  | overflow stale recoveryBuf reason ts =>
    rw [waiting.fresh] at stale
    cases stale
  | skipped before | applied before | refused before | failed before | recovered before =>
    exact absurd waiting.awaiting before.seeded

private theorem waiting_new (inst : ConnectorCore.InstrumentDefinition) :
    (new inst).Waiting := ⟨rfl, rfl⟩

/-- A fresh symbol waits for ever: its book stays empty, and it never asks for a snapshot. -/
theorem waiting_forever (inst : ConnectorCore.InstrumentDefinition) (inputs : List FuturesInput) :
    (new inst).SameBut (machine.final (new inst) inputs) ∧
      machine.effects (new inst) inputs = [] := by
  suffices general : ∀ start : FuturesSymbolState, start.Waiting →
      start.SameBut (machine.final start inputs) ∧ machine.effects start inputs = [] from
    general _ (waiting_new inst)
  induction inputs with
  | nil => exact fun start _ => ⟨⟨start.recoveryBuf, rfl⟩, rfl⟩
  | cons input rest ih =>
    intro start waiting
    obtain ⟨⟨recoveryBuf, same⟩, silent⟩ := waiting_step (handle_outcome start input) waiting
    have still : (machine.next start input).Waiting := by
      rw [same]
      exact ⟨waiting.fresh, waiting.awaiting⟩
    obtain ⟨⟨last, kept⟩, later⟩ := ih _ still
    refine ⟨⟨last, ?_⟩, ?_⟩
    · rw [Machine.final_cons, kept, same]
    · rw [Machine.effects_cons, silent, later, List.append_nil]

end FuturesSymbolState

end TradingConnectivity.Shard
