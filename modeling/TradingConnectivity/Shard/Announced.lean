import TradingConnectivity.Normalize.Context
import TradingConnectivity.Shard.Moves

/-! # What the control messages show

A consumer that reads the control messages of a symbol in order knows at every moment whether the
book is stale and in which state the feed is (`announced`). The feed is live only while the book is
not stale, and stale or recovering only while it is (`settled`). A feed that was degraded while its
book was fine stays degraded until the book is announced stale (`degraded_until_stale`).
-/

namespace TradingConnectivity.Shard

open ConnectorCore (InstrumentDefinition FeedState)
open MarketData

/-- What a consumer knows about a symbol. -/
@[ext] structure Shown where
  stale : Bool
  feed : FeedState
deriving DecidableEq, Repr

/-- Reading a control message; a snapshot request is not seen. -/
def Shown.read (shown : Shown) : Effect → Shown
  | .announce (.gapDetected _ _) _ => shown
  | .announce (.bookStale _) _ => { shown with stale := true }
  | .announce (.bookRecovered _) _ => { shown with stale := false }
  | .announce (.feedStatus feed) _ => { shown with feed }
  | .fetchSnapshot _ | .fetchComparison _ => shown

/-- A message that the book is stale. -/
def Effect.marksStale : Effect → Bool
  | .announce (.bookStale _) _ => true
  | .announce _ _ | .fetchSnapshot _ | .fetchComparison _ => false

namespace SymbolState

/-- What the consumers of a symbol should know. -/
def shown (state : SymbolState) : Shown := ⟨state.book.stale, state.feedState⟩

/-- The effects so far show the state. -/
abbrev Announced (start : SymbolState) (work : Work SymbolState Effect) : Prop :=
  work.Tracks shown Shown.read start

variable {start : SymbolState} {work : Work SymbolState Effect}

theorem Announced.setFeedState (announced : Announced start work) (new : FeedState) (ts : Int64) :
    Announced start (setFeedState new ts work) := by
  rw [SymbolState.setFeedState]
  split
  · exact announced
  · exact Work.Tracks.emit announced rfl

/-- A book that has recovered is not stale. -/
private theorem isStale_withRecovery_ok {state : SymbolState} {snapshot : BookSnapshot}
    {outcome : RecoveryOutcome} (succeeded : (state.recovery snapshot).result = .ok outcome) :
    (state.withRecovery snapshot).isStale = false := by
  have recovers := applySnapshot_recovers spot_ordered snapshot state.book state.validator
    state.recoveryBuf
  by_cases complete : (scanFrom spotPosition snapshot.updateId
      (pastSnapshot snapshot.updateId state.recoveryBuf.events)).2 = []
  · exact (recovers.succeeds complete).2
  · obtain ⟨⟨expected, actual, failed⟩, -⟩ := recovers.fails complete
    rw [recovery, applySpotSnapshot, failed] at succeeded
    cases succeeded

theorem Announced.move {input : SymbolInput} {next : Work SymbolState Effect}
    (announced : Announced start work) (move : Move input work next) : Announced start next := by
  cases move with
  | feed ts reason => exact announced.setFeedState _ ts
  | gap expected actual ts => exact announced.emit_other rfl
  | stale reason ts => exact Work.Tracks.emit announced rfl
  | fetch stale closed clock => exact announced.emit_other rfl
  | compare now => exact announced.emit_other rfl
  | recovered now stale fetched succeeded =>
    have fresh := isStale_withRecovery_ok succeeded
    rw [finishRecovery]
    refine Announced.setFeedState ?_ .live now
    exact Work.Tracks.emit announced (Shown.ext fresh.symm rfl)
  | replayed stale fetched failed =>
    exact announced.update (Shown.ext (isStale_withRecovery failed) rfl)
  | check clock => exact announced.update rfl
  | failure clock => exact announced.update rfl
  | compared bboValidator => exact announced.update rfl
  | push recvTs encodedLen received => exact announced.update rfl
  | clear => exact announced.update rfl
  | seed received fresh => exact announced.update rfl
  | apply received accepted => exact announced.update rfl
  | skip received refused => exact announced.update rfl

theorem announced_handle (input : SymbolInput) (start : SymbolState) :
    Announced start (handle input ⟨start, []⟩) := by
  have begin : Announced start ⟨start, []⟩ := Work.Tracks.refl start
  exact Work.invariant_of_moves (fun _ _ move announced => announced.move move)
    (moves_handle input _) begin

/-- The control messages of a run show the state it reached. -/
theorem announced (start : SymbolState) (inputs : List SymbolInput) :
    (machine.effects start inputs).foldl Shown.read start.shown =
      (machine.final start inputs).shown :=
  Machine.foldl_effects (fun state input => announced_handle input state) start inputs

/-! ## Feed and book -/

/-- The feed state agrees with the book; `degraded` says nothing about it. -/
structure Settled (state : SymbolState) : Prop where
  fresh : state.feedState = .live ∨ state.feedState = .connecting → state.isStale = false
  stale : state.feedState = .stale ∨ state.feedState = .recovering → state.isStale = true
  used : state.feedState ≠ .recovered ∧ state.feedState ≠ .failed

private theorem settled_new (inst : InstrumentDefinition) : (new inst).Settled := by
  constructor <;> simp [new, isStale, OrderBook.new]

private theorem settled_of_degraded {state : SymbolState} (degraded : state.feedState = .degraded) :
    state.Settled := by
  constructor <;> simp [degraded]

private theorem settled_of_live {state : SymbolState} (live : state.feedState = .live)
    (fresh : state.isStale = false) : state.Settled := by
  constructor <;> simp [live, fresh]

private theorem settled_of_stale {state : SymbolState}
    (feed : state.feedState = .stale ∨ state.feedState = .recovering)
    (stale : state.isStale = true) : state.Settled := by
  constructor <;> rcases feed with feed | feed <;> simp [feed, stale]

@[simp] theorem feedState_setFeedState (new : FeedState) (ts : Int64) :
    (setFeedState new ts work).state.feedState = new := by
  rw [setFeedState]
  split
  · assumption
  · rfl

/-- Only the book and the feed state matter. -/
theorem Settled.of_eq {state other : SymbolState} (settled : state.Settled)
    (stale : other.isStale = state.isStale) (feed : other.feedState = state.feedState) :
    other.Settled := by
  obtain ⟨fresh, marked, used⟩ := settled
  rw [← stale, ← feed] at fresh marked
  rw [← feed] at used
  exact ⟨fresh, marked, used⟩

private theorem settled_recordFailure (settled : work.state.Settled) (now : Int64) :
    (recordFailure now work).2.state.Settled := by
  simp only [recordFailure]
  split
  · exact settled_of_degraded (feedState_setFeedState ..)
  · exact settled.of_eq rfl rfl

private theorem settled_pushToRecovery (settled : work.state.Settled) (bd : BookDelta)
    (encodedLen : ℕ)
    (recvTs now : Int64) : (pushToRecovery bd encodedLen recvTs now work).state.Settled := by
  rw [pushToRecovery]
  split
  · exact settled.of_eq rfl rfl
  · refine settled_recordFailure ?_ now
    exact settled.of_eq rfl rfl

/-- An attempt on a stale book ends with a live feed or with a feed that knows of the stale book. -/
theorem settled_attempt (stale : work.state.isStale) (now : Int64)
    (fetched : Option BookSnapshot) : (attempt now fetched work).2.state.Settled := by
  have asked : ((setFeedState .recovering now work).emit (.fetchSnapshot now)).state.Settled :=
    settled_of_stale (.inr (feedState_setFeedState ..)) ((isStale_setFeedState ..).trans stale)
  simp only [attempt]
  generalize (setFeedState .recovering now work).emit (.fetchSnapshot now) = work at asked ⊢
  cases fetched with
  | none => exact settled_recordFailure asked now
  | some snapshot =>
    simp only
    cases result : (work.state.recovery snapshot).result with
    | ok outcome =>
      refine settled_of_live (feedState_setFeedState ..) ((isStale_setFeedState ..).trans ?_)
      exact isStale_withRecovery_ok result
    | error e =>
      refine settled_recordFailure ?_ now
      exact asked.of_eq (isStale_withRecovery result) rfl

private theorem settled_onGap (bd : BookDelta) (expected actual : UInt64) (encodedLen : ℕ)
    (recvTs now : Int64) (fetched : Option BookSnapshot) :
    (onGap bd expected actual encodedLen recvTs now fetched work).state.Settled := by
  have stale : (pushToRecovery bd encodedLen recvTs now (markStale .sequenceGap recvTs
      (work.emit (.announce (.gapDetected expected actual) recvTs)))).state.isStale :=
    isStale_pushToRecovery ..
  simp only [onGap]
  generalize pushToRecovery bd encodedLen recvTs now _ = work at stale ⊢
  cases (work.state.circuit.check now).2 with
  | opened limit => exact settled_of_degraded (feedState_setFeedState ..)
  | closed =>
    have settled := @settled_attempt
      (work.update ({ · with circuit := (work.state.circuit.check now).1 })) stale now fetched
    have leftStale := @isStale_attempt
      (work.update ({ · with circuit := (work.state.circuit.check now).1 })) now fetched stale
    simp only
    generalize attempt now fetched _ = result at settled leftStale ⊢
    obtain ⟨failed, work⟩ := result
    cases failed with
    | true =>
      exact settled_of_stale (.inl (feedState_setFeedState ..))
        ((isStale_setFeedState ..).trans (leftStale rfl))
    | false => exact settled

private theorem settled_onDelta (settled : work.state.Settled) (bd : BookDelta) (encodedLen : ℕ)
    (recvTs now : Int64) (fetched : Option BookSnapshot) :
    (onDelta bd encodedLen recvTs now fetched work).state.Settled := by
  have seeded : (seed bd work).state.Settled := by
    rw [seed]
    split
    · exact settled.of_eq rfl rfl
    · exact settled
  simp only [onDelta]
  generalize seed bd work = work at seeded ⊢
  cases (work.state.validation bd).1 with
  | apply =>
    simp only
    split
    · rename_i connecting
      refine settled_of_live (feedState_setFeedState ..) ((isStale_setFeedState ..).trans ?_)
      exact seeded.fresh (.inr connecting)
    · exact seeded.of_eq rfl rfl
  | discard => exact seeded.of_eq rfl rfl
  | buffering =>
    refine settled_pushToRecovery ?_ bd encodedLen recvTs now
    exact seeded.of_eq rfl rfl
  | gap expected actual lastValid =>
    exact settled_onGap bd expected actual encodedLen recvTs now fetched

private theorem settled_onBestBidOffer (settled : work.state.Settled)
    (bidPrice askPrice recvTs : Int64) :
    (onBestBidOffer bidPrice askPrice recvTs work).state.Settled := by
  simp only [onBestBidOffer]
  split
  · exact settled.of_eq rfl rfl
  cases (work.state.bboValidator.check _).2 with
  | ok => exact settled.of_eq rfl rfl
  | degrade mismatchNs => exact settled_of_degraded (feedState_setFeedState ..)
  | markStale mismatchNs =>
    exact settled_of_stale (.inl (feedState_setFeedState ..)) (isStale_setFeedState ..)

/-- Every input leaves the feed state in agreement with the book. -/
theorem settled_handle (settled : work.state.Settled) (input : SymbolInput) :
    (handle input work).state.Settled := by
  cases input with
  | delta bd encodedLen recvTs now fetched =>
    exact settled_onDelta settled bd encodedLen recvTs now fetched
  | bestBidOffer bidPrice askPrice recvTs =>
    exact settled_onBestBidOffer settled bidPrice askPrice recvTs
  | retry now fetched =>
    rw [handle]
    split
    · rename_i stale
      simp only [onRetry]
      cases (work.state.circuit.check now).2 with
      | opened limit => exact settled.of_eq rfl rfl
      | closed =>
        refine settled_attempt ?_ now fetched
        exact stale
    · exact settled
  | validate now fetched =>
    rw [handle]
    split
    · simp only [onValidate]
      cases fetched with
      | none => exact settled
      | some snapshot =>
        simp only
        split
        · exact settled
        · exact settled_of_stale (.inl (feedState_setFeedState ..)) (isStale_setFeedState ..)
    · exact settled

/-- In every reachable state the feed state agrees with the book. -/
theorem feed_settled (inst : InstrumentDefinition) (inputs : List SymbolInput) :
    (machine.final (new inst) inputs).Settled := by
  refine machine.invariant ?_ (settled_new inst) inputs
  intro state input settled
  exact @settled_handle ⟨state, []⟩ settled input

/-! ## A feed that stays degraded -/

/-- A degraded feed on a book that is not stale. -/
structure Tarnished (state : SymbolState) : Prop where
  degraded : state.feedState = .degraded
  fresh : state.isStale = false

/-- Until the book is marked stale no move changes a degraded feed. -/
theorem tarnished_move {input : SymbolInput} {next : Work SymbolState Effect}
    (before : (∃ e ∈ work.effects, e.marksStale) ∨ work.state.Tarnished)
    (move : Move input work next) : (∃ e ∈ next.effects, e.marksStale) ∨ next.state.Tarnished := by
  obtain ⟨more, grown⟩ := move.effects_grow
  rcases before with ⟨e, member, marks⟩ | tarnished
  · exact .inl ⟨e, by rw [grown]; exact List.mem_append_left _ member, marks⟩
  have notStale : ¬work.state.isStale = true := by simp [tarnished.fresh]
  cases move with
  | feed ts reason =>
    cases reason with
    | degraded =>
      refine .inr ⟨feedState_setFeedState .degraded ts, ?_⟩
      exact (isStale_setFeedState ..).trans tarnished.fresh
    | connected connecting => simp [tarnished.degraded] at connecting
    | recovering stale => exact absurd stale notStale
    | stale stale => exact absurd stale notStale
  | stale reason ts => exact .inl ⟨_, List.mem_append_right _ List.mem_cons_self, rfl⟩
  | fetch stale closed clock => exact absurd stale notStale
  | recovered now stale fetched succeeded => exact absurd stale notStale
  | replayed stale fetched failed => exact absurd stale notStale
  | gap | compare | check | failure | compared | push | clear | seed | apply | skip =>
    exact .inr ⟨tarnished.degraded, tarnished.fresh⟩

/-- A feed that is degraded while its book is not stale stays degraded as long as the book is not
marked stale, whatever else happens. -/
theorem degraded_until_stale {start : SymbolState} (tarnished : start.Tarnished)
    (inputs : List SymbolInput) (unmarked : ∀ e ∈ machine.effects start inputs, ¬e.marksStale) :
    (machine.final start inputs).Tarnished := by
  induction inputs generalizing start with
  | nil => exact tarnished
  | cons input rest ih =>
    rw [Machine.effects_cons] at unmarked
    have moves := moves_handle input ⟨start, []⟩
    have step := Work.invariant_of_moves (fun _ _ move before => tarnished_move before move) moves
      (.inr tarnished)
    rcases step with ⟨e, member, marks⟩ | kept
    · exact absurd marks (unmarked e (List.mem_append_left _ member))
    · exact ih kept fun e member => unmarked e (List.mem_append_right _ member)

/-- A feed degraded by a best bid that was another one for three hundred milliseconds. -/
def mismatched : SymbolState :=
  machine.final (new (Normalize.bitcoin .binanceSpot .spot))
    [.delta ⟨1, 1, 0, [⟨100, 1⟩], [⟨102, 1⟩]⟩ 64 0 0 none, .bestBidOffer 99 102 0,
      .bestBidOffer 99 102 300000000]

/-- The feed is degraded although the prices agree again. -/
theorem degraded_after_agreement :
    (machine.final mismatched [.bestBidOffer 100 102 300000001,
      .delta ⟨2, 2, 0, [⟨99, 1⟩], []⟩ 64 300000002 300000002 none,
      .retry 300000003 none]).Tarnished :=
  degraded_until_stale ⟨by decide, by decide⟩ _ (by decide)

end SymbolState

end TradingConnectivity.Shard
