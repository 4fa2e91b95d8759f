import Mathlib.Algebra.Order.Group.Nat
import TradingConnectivity.Normalize.Context
import TradingConnectivity.Shard.Moves

/-! # How often a shard asks for snapshots

A recovery asks the exchange for a snapshot only while the circuit of its symbol is closed, and a
recovery that does not succeed is a failure of the circuit. So as long as no recovery succeeds a
symbol asks for at most five snapshots in any thirty seconds, however many gaps, ticks and
overflows there are (`requests_le`).
-/

namespace TradingConnectivity.Shard

open ConnectorCore (InstrumentDefinition FeedState)
open MarketData

namespace Effect

/-- The time of a request for a recovery snapshot. -/
def request? : Effect → Option Int64
  | fetchSnapshot now => some now
  | announce _ _ | fetchComparison _ => none

/-- A message that the book has recovered. -/
def marksRecovered : Effect → Bool
  | announce (.bookRecovered _) _ => true
  | announce _ _ | fetchSnapshot _ | fetchComparison _ => false

end Effect

/-- The times at which recovery snapshots were requested. -/
def requests (effects : List Effect) : List Int64 := effects.filterMap Effect.request?

/-- What a handler may do to a circuit at a given time, with the number of requests it makes. -/
inductive Charged (now : Int64) (circuit : CircuitBreaker) : ℕ → CircuitBreaker → Prop
  | refl : Charged now circuit 0 circuit
  | check {n : ℕ} {after : CircuitBreaker} (charged : Charged now circuit n after) :
      Charged now circuit n (after.check now).1
  | failure {n : ℕ} {after : CircuitBreaker} (charged : Charged now circuit n after) :
      Charged now circuit n (after.recordFailure now).1
  | attempt {n : ℕ} {after : CircuitBreaker} (charged : Charged now circuit n after)
      (closed : after.openUntil = none) :
      Charged now circuit (n + 1) (after.recordFailure now).1

namespace SymbolState

variable {work : Work SymbolState Effect} {now : Int64} {circuit : CircuitBreaker}

/-- Either the book has recovered, or every request so far has been charged to the circuit. -/
def Pays (now : Int64) (circuit : CircuitBreaker) (work : Work SymbolState Effect) : Prop :=
  (∃ e ∈ work.effects, e.marksRecovered) ∨
    (∀ ts ∈ requests work.effects, ts = now) ∧
      Charged now circuit (requests work.effects).length work.state.circuit

/-- The last request is still to be charged. -/
def Owes (now : Int64) (circuit : CircuitBreaker) (work : Work SymbolState Effect) : Prop :=
  (∃ e ∈ work.effects, e.marksRecovered) ∨
    (∀ ts ∈ requests work.effects, ts = now) ∧ work.state.circuit.openUntil = none ∧
      ∃ n, (requests work.effects).length = n + 1 ∧ Charged now circuit n work.state.circuit

theorem Pays.begin (state : SymbolState) (now : Int64) : Pays now state.circuit ⟨state, []⟩ :=
  .inr ⟨by simp [requests], .refl⟩

/-- Messages and changes of other components cost nothing. -/
theorem Pays.of_eq (pays : Pays now circuit work) {other : Work SymbolState Effect}
    {more : List Effect} (effects : other.effects = work.effects ++ more)
    (silent : requests more = []) (same : other.state.circuit = work.state.circuit) :
    Pays now circuit other := by
  rcases pays with ⟨e, member, recovered⟩ | ⟨times, charged⟩
  · exact .inl ⟨e, by rw [effects]; exact List.mem_append_left _ member, recovered⟩
  · have unchanged : requests other.effects = requests work.effects := by
      rw [effects, requests, List.filterMap_append, ← requests, ← requests, silent,
        List.append_nil]
    exact .inr ⟨unchanged ▸ times, by rw [unchanged, same]; exact charged⟩

theorem Pays.update (pays : Pays now circuit work) {change : SymbolState → SymbolState}
    (same : (change work.state).circuit = work.state.circuit) :
    Pays now circuit (work.update change) :=
  pays.of_eq (List.append_nil _).symm rfl same

private theorem pays_setFeedState (pays : Pays now circuit work) (new : FeedState) (ts : Int64) :
    Pays now circuit (setFeedState new ts work) := by
  rw [setFeedState]
  split
  · exact pays
  · exact pays.of_eq rfl rfl rfl

private theorem Pays.charge (pays : Pays now circuit work) {after : CircuitBreaker}
    (charges : ∀ n, Charged now circuit n work.state.circuit → Charged now circuit n after) :
    Pays now circuit (work.update ({ · with circuit := after })) := by
  rcases pays with recovered | ⟨times, charged⟩
  · exact .inl recovered
  · exact .inr ⟨times, charges _ charged⟩

private theorem pays_recordFailure (pays : Pays now circuit work) :
    Pays now circuit (recordFailure now work).2 := by
  have failed := pays.charge fun n charged => charged.failure
  simp only [recordFailure]
  split
  · exact pays_setFeedState failed .degraded now
  · exact failed

private theorem pays_recordFailure_of_owes (owes : Owes now circuit work) :
    Pays now circuit (recordFailure now work).2 := by
  have failed : Pays now circuit
      (work.update ({ · with circuit := (work.state.circuit.recordFailure now).1 })) := by
    rcases owes with recovered | ⟨times, closed, n, length, charged⟩
    · exact .inl recovered
    · refine .inr ⟨times, ?_⟩
      rw [Work.update_effects, length]
      exact charged.attempt closed
  simp only [recordFailure]
  split
  · exact pays_setFeedState failed .degraded now
  · exact failed

private theorem pays_pushToRecovery (pays : Pays now circuit work) (bd : BookDelta) (encodedLen : ℕ)
    (recvTs : Int64) : Pays now circuit (pushToRecovery bd encodedLen recvTs now work) := by
  rw [pushToRecovery]
  split
  · exact pays.update rfl
  · refine pays_recordFailure ?_
    exact pays.update rfl

private theorem recovered_mem_finishRecovery (outcome : RecoveryOutcome) (now : Int64) :
    .announce (.bookRecovered outcome.snapshotId) now ∈
      (finishRecovery outcome now work).effects := by
  simp only [finishRecovery]
  generalize emitted : (work.update _).emit (.announce (.bookRecovered outcome.snapshotId) now) =
    announced
  obtain ⟨more, grown⟩ := @effects_setFeedState announced .live now
  rw [grown, ← emitted]
  exact List.mem_append_left _ (List.mem_append_right _ List.mem_cons_self)

/-- A request is owed until the attempt fails; an attempt that succeeds is a recovery. -/
theorem pays_attempt (pays : Pays now circuit work)
    (closed : work.state.circuit.openUntil = none) (fetched : Option BookSnapshot) :
    Pays now circuit (attempt now fetched work).2 := by
  have recovering := pays_setFeedState pays .recovering now
  have owes : Owes now circuit ((setFeedState .recovering now work).emit (.fetchSnapshot now)) := by
    have added : requests (((setFeedState .recovering now work).emit
        (.fetchSnapshot now)).effects) =
          requests (setFeedState .recovering now work).effects ++ [now] := by
      rw [Work.emit_effects, requests, List.filterMap_append]
      rfl
    rcases recovering with ⟨e, member, recovered⟩ | ⟨times, charged⟩
    · exact .inl ⟨e, List.mem_append_left _ member, recovered⟩
    · have stillClosed : (setFeedState .recovering now work).state.circuit.openUntil = none := by
        rwa [circuit_setFeedState]
      refine .inr ⟨?_, stillClosed, _, ?_, charged⟩
      · intro ts member
        rw [added] at member
        rcases List.mem_append.mp member with earlier | last
        · exact times ts earlier
        · exact List.mem_singleton.mp last
      · rw [added, List.length_append, List.length_singleton]
  simp only [attempt]
  generalize (setFeedState .recovering now work).emit (.fetchSnapshot now) = work at owes ⊢
  cases fetched with
  | none => exact pays_recordFailure_of_owes owes
  | some snapshot =>
    simp only
    cases result : (work.state.recovery snapshot).result with
    | ok outcome =>
      refine .inl ⟨.announce (.bookRecovered outcome.snapshotId) now, ?_, rfl⟩
      exact recovered_mem_finishRecovery outcome now
    | error e =>
      refine pays_recordFailure_of_owes ?_
      exact owes

private theorem pays_onGap (pays : Pays now circuit work) (bd : BookDelta)
    (expected actual : UInt64)
    (encodedLen : ℕ) (recvTs : Int64) (fetched : Option BookSnapshot) :
    Pays now circuit (onGap bd expected actual encodedLen recvTs now fetched work) := by
  have gap : Pays now circuit (work.emit (.announce (.gapDetected expected actual) recvTs)) :=
    pays.of_eq rfl rfl rfl
  have marked : Pays now circuit (markStale .sequenceGap recvTs
      (work.emit (.announce (.gapDetected expected actual) recvTs))) := gap.of_eq rfl rfl rfl
  have buffered := pays_pushToRecovery marked bd encodedLen recvTs
  simp only [onGap]
  generalize pushToRecovery bd encodedLen recvTs now _ = work at buffered ⊢
  have checked := buffered.charge fun n charged => charged.check
  cases found : (work.state.circuit.check now).2 with
  | opened limit => exact pays_setFeedState checked .degraded now
  | closed =>
    have tried := pays_attempt checked (openUntil_of_check found) fetched
    simp only
    generalize attempt now fetched _ = result at tried ⊢
    obtain ⟨failed, work⟩ := result
    cases failed with
    | true => exact pays_setFeedState tried .stale now
    | false => exact tried

private theorem pays_onDelta (pays : Pays now circuit work) (bd : BookDelta) (encodedLen : ℕ)
    (recvTs : Int64) (fetched : Option BookSnapshot) :
    Pays now circuit (onDelta bd encodedLen recvTs now fetched work) := by
  have seeded : Pays now circuit (seed bd work) := by
    rw [seed]
    split
    · exact pays.update rfl
    · exact pays
  simp only [onDelta]
  generalize seed bd work = work at seeded ⊢
  cases (work.state.validation bd).1 with
  | apply =>
    simp only
    split
    · refine pays_setFeedState ?_ .live recvTs
      exact seeded.update rfl
    · exact seeded.update rfl
  | discard => exact seeded.update rfl
  | buffering =>
    refine pays_pushToRecovery ?_ bd encodedLen recvTs
    exact seeded.update rfl
  | gap expected actual lastValid =>
    refine pays_onGap ?_ bd expected actual encodedLen recvTs fetched
    exact seeded.update rfl

private theorem pays_onRetry (pays : Pays now circuit work) (fetched : Option BookSnapshot) :
    Pays now circuit (onRetry now fetched work) := by
  have checked := pays.charge fun n charged => charged.check
  simp only [onRetry]
  cases found : (work.state.circuit.check now).2 with
  | opened limit => exact checked
  | closed => exact pays_attempt checked (openUntil_of_check found) fetched

@[simp] theorem requests_setFeedState (new : FeedState) (ts : Int64) :
    requests (setFeedState new ts work).effects = requests work.effects := by
  rw [setFeedState]
  split
  · rfl
  · simp [requests, Effect.request?]

/-- An input that asks the circuit at no time makes no request and leaves the circuit alone. -/
theorem idle_handle {input : SymbolInput} (noClock : input.clock? = none) (state : SymbolState) :
    requests (handle input ⟨state, []⟩).effects = [] ∧
      (handle input ⟨state, []⟩).state.circuit = state.circuit := by
  cases input with
  | delta | retry => cases noClock
  | bestBidOffer bidPrice askPrice recvTs =>
    rw [handle]
    simp only [onBestBidOffer]
    split
    · exact ⟨rfl, rfl⟩
    cases (state.bboValidator.check _).2 with
    | ok => exact ⟨rfl, rfl⟩
    | degrade mismatchNs => exact ⟨requests_setFeedState .., circuit_setFeedState ..⟩
    | markStale mismatchNs => exact ⟨requests_setFeedState .., circuit_setFeedState ..⟩
  | validate now fetched =>
    rw [handle]
    split
    · simp only [onValidate]
      cases fetched with
      | none => exact ⟨rfl, rfl⟩
      | some snapshot =>
        simp only
        split
        · exact ⟨rfl, rfl⟩
        · exact ⟨requests_setFeedState .., circuit_setFeedState ..⟩
    · exact ⟨rfl, rfl⟩

private theorem pays_handle {input : SymbolInput} (clock : input.clock? = some now)
    (state : SymbolState) :
    Pays now state.circuit (handle input ⟨state, []⟩) := by
  have begin := Pays.begin state now
  cases input with
  | delta bd encodedLen recvTs time fetched =>
    obtain rfl := Option.some.inj clock
    exact pays_onDelta begin bd encodedLen recvTs fetched
  | retry time fetched =>
    obtain rfl := Option.some.inj clock
    rw [handle]
    split
    · exact pays_onRetry begin fetched
    · exact begin
  | bestBidOffer | validate => cases clock

end SymbolState

/-! ## The limit -/

/-- A breaker with the default limits that has not missed its limit of failures. -/
structure Ready (circuit : CircuitBreaker) : Prop where
  attempts : circuit.maxAttempts = 5
  cooldown : circuit.cooldownNs = 30000000000
  below : circuit.openUntil = none → circuit.failures.toNat < 5

/-- Where the circuit stands after `n` requests since a given time. -/
inductive Standing (since now : ℤ) (n : ℕ) (circuit : CircuitBreaker) : Prop
  | closed (limit : circuit.openUntil = none) (spent : n ≤ circuit.failures.toNat)
  | opened {limit : Int64} (holds : circuit.openUntil = some limit) (spent : n ≤ 5)
      (late : 0 < n → since + 30000000000 ≤ limit.toInt)
  | past (spent : n ≤ 5) (passed : since + 30000000000 ≤ now)

/-- What is left of the five requests that a circuit grants in thirty seconds. -/
structure Budget (since now : ℤ) (n : ℕ) (circuit : CircuitBreaker) : Prop where
  ready : Ready circuit
  began : 0 < n → since ≤ now
  standing : Standing since now n circuit

namespace Ready

variable {circuit : CircuitBreaker}

theorem recordSuccess (ready : Ready circuit) : Ready circuit.recordSuccess :=
  ⟨ready.attempts, ready.cooldown, fun _ => by simp [CircuitBreaker.recordSuccess]⟩

theorem check (ready : Ready circuit) (now : Int64) : Ready (circuit.check now).1 := by
  cases holds : circuit.openUntil with
  | none => rwa [CircuitBreaker.check_of_closed holds]
  | some limit =>
    by_cases early : now < limit
    · rwa [CircuitBreaker.check_of_open holds early]
    · rw [CircuitBreaker.check_of_expired holds (Int64.not_lt.mp early)]
      exact ready.recordSuccess

/-- A failure on a closed circuit is counted, and the fifth one opens it. -/
theorem recordFailure_closed (ready : Ready circuit) (closed : circuit.openUntil = none)
    (now : Int64) :
    (circuit.recordFailure now).1.failures.toNat = circuit.failures.toNat + 1 ∧
      ((circuit.recordFailure now).1.openUntil = none ∧ circuit.failures.toNat + 1 < 5 ∨
        (circuit.recordFailure now).1.openUntil = some (now + 30000000000) ∧
          circuit.failures.toNat + 1 = 5) := by
  have below := ready.below closed
  have next : (circuit.failures + 1).toNat = circuit.failures.toNat + 1 := by
    rw [UInt32.toNat_add]
    exact Nat.mod_eq_of_lt (by simp; omega)
  by_cases reached : circuit.maxAttempts ≤ circuit.failures + 1
  · have five : 5 ≤ (circuit.failures + 1).toNat := by
      have := UInt32.le_iff_toNat_le.mp reached
      rwa [ready.attempts] at this
    rw [CircuitBreaker.recordFailure_of_limit closed reached, ← ready.cooldown]
    exact ⟨next, .inr ⟨rfl, by omega⟩⟩
  · have four : (circuit.failures + 1).toNat < 5 := by
      have := UInt32.lt_iff_toNat_lt.mp (UInt32.not_le.mp reached)
      rwa [ready.attempts] at this
    rw [CircuitBreaker.recordFailure_of_below closed reached]
    exact ⟨next, .inl ⟨closed, by omega⟩⟩

theorem recordFailure (ready : Ready circuit) (now : Int64) :
    Ready (circuit.recordFailure now).1 := by
  cases holds : circuit.openUntil with
  | some limit => rwa [CircuitBreaker.recordFailure_of_open holds]
  | none =>
    have counted := ready.recordFailure_closed holds now
    refine ⟨?_, ?_, fun closed => ?_⟩
    · rw [CircuitBreaker.recordFailure]
      split
      · exact ready.attempts
      · simp only
        split <;> exact ready.attempts
    · rw [CircuitBreaker.recordFailure]
      split
      · exact ready.cooldown
      · simp only
        split <;> exact ready.cooldown
    · obtain ⟨next, ⟨-, below⟩ | ⟨opened, -⟩⟩ := counted
      · omega
      · rw [opened] at closed
        cases closed

end Ready

namespace Budget

variable {since now later : ℤ} {n : ℕ} {circuit : CircuitBreaker}

private theorem le_five (budget : Budget since now n circuit) : n ≤ 5 := by
  cases budget.standing with
  | closed limit spent =>
    have below := budget.ready.below limit
    omega
  | opened _ spent _ => exact spent
  | past spent _ => exact spent

theorem mono (budget : Budget since now n circuit) (order : now ≤ later) :
    Budget since later n circuit where
  ready := budget.ready
  began := fun positive => (budget.began positive).trans order
  standing := by
    cases budget.standing with
    | closed limit spent => exact .closed limit spent
    | opened holds spent late => exact .opened holds spent late
    | past spent passed => exact .past spent (passed.trans order)

variable {time : Int64}

/-- When the cooldown is over either nothing was requested or the thirty seconds are over. -/
theorem check (budget : Budget since time.toInt n circuit) :
    Budget since time.toInt n (circuit.check time).1 where
  ready := budget.ready.check time
  began := budget.began
  standing := by
    have most := budget.le_five
    cases budget.standing with
    | closed limit spent =>
      rw [CircuitBreaker.check_of_closed limit]
      exact .closed limit spent
    | opened holds spent late =>
      rename_i limit
      by_cases early : time < limit
      · rw [CircuitBreaker.check_of_open holds early]
        exact .opened holds spent late
      · have expired := Int64.not_lt.mp early
        rw [CircuitBreaker.check_of_expired holds expired]
        rcases Nat.eq_zero_or_pos n with rfl | positive
        · exact .closed rfl (Nat.zero_le _)
        · exact .past spent ((late positive).trans (Int64.le_iff_toInt_le.mp expired))
    | past spent passed => exact .past spent passed

/-- A failure that opens the circuit keeps it open until the thirty seconds are over. -/
theorem failure (budget : Budget since time.toInt n circuit)
    (room : time.toInt + 30000000000 < 2 ^ 63) {more : ℕ}
    (charged : more = n ∨ more = n + 1 ∧ circuit.openUntil = none ∧ since ≤ time.toInt ∧
      time.toInt < since + 30000000000) :
    Budget since time.toInt more (circuit.recordFailure time).1 := by
  have began : 0 < more → since ≤ time.toInt := by
    intro positive
    rcases charged with rfl | ⟨-, -, began, -⟩
    · exact budget.began positive
    · exact began
  refine ⟨budget.ready.recordFailure time, began, ?_⟩
  cases budget.standing with
  | closed limit spent =>
    obtain ⟨next, position⟩ := budget.ready.recordFailure_closed limit time
    have counted : more ≤ circuit.failures.toNat + 1 := by
      rcases charged with rfl | ⟨rfl, -⟩ <;> omega
    rcases position with ⟨closed, -⟩ | ⟨opened, five⟩
    · exact .closed closed (next ▸ counted)
    · refine .opened opened (five ▸ counted) fun positive => ?_
      have cooldown : (30000000000 : Int64).toInt = 30000000000 := by decide
      have least := time.le_toInt
      rw [Int64.toInt_add_of_bounds (by omega) (by omega), cooldown]
      have := began positive
      omega
  | opened holds spent late =>
    rw [CircuitBreaker.recordFailure_of_open holds]
    rcases charged with rfl | ⟨-, closed, -⟩
    · exact .opened holds spent late
    · rw [holds] at closed
      cases closed
  | past spent passed =>
    rcases charged with rfl | ⟨-, -, -, within⟩
    · exact .past spent passed
    · omega

/-- What a handler charges stays within the budget. -/
private theorem charged (budget : Budget since time.toInt n circuit)
    (room : time.toInt + 30000000000 < 2 ^ 63) {more : ℕ} {after : CircuitBreaker}
    (charged : Charged time circuit more after)
    (window : 0 < more → since ≤ time.toInt ∧ time.toInt < since + 30000000000) :
    Budget since time.toInt (n + more) after := by
  induction charged with
  | refl => exact budget
  | check charged ih => exact (ih window).check
  | failure charged ih => exact (ih window).failure room (.inl rfl)
  | attempt charged closed ih =>
    have inside := window (Nat.succ_pos _)
    exact (ih fun _ => inside).failure room (.inr ⟨rfl, closed, inside⟩)

end Budget

namespace SymbolState

private theorem ready_setFeedState {work : Work SymbolState Effect}
    (ready : Ready work.state.circuit)
    (new : FeedState) (ts : Int64) : Ready (setFeedState new ts work).state.circuit := by
  rwa [circuit_setFeedState]

private theorem ready_move {input : SymbolInput} {work next : Work SymbolState Effect}
    (move : Move input work next) (ready : Ready work.state.circuit) :
    Ready next.state.circuit := by
  cases move with
  | feed ts reason => exact ready_setFeedState ready _ ts
  | recovered now stale fetched succeeded =>
    refine ready_setFeedState ?_ .live now
    exact ready.recordSuccess
  | @check now clock => exact ready.check now
  | @failure now clock => exact ready.recordFailure now
  | gap | stale | fetch | compare | replayed | compared | push | clear | seed | apply | skip =>
    exact ready

theorem ready (inst : InstrumentDefinition) (inputs : List SymbolInput) :
    Ready (machine.final (new inst) inputs).circuit := by
  have kept : ∀ state input, Ready state.circuit → Ready (machine.next state input).circuit := by
    intro state input ready
    exact Work.invariant_of_moves (P := fun work => Ready work.state.circuit)
      (fun _ _ move ready => ready_move move ready) (moves_handle input ⟨state, []⟩) ready
  have initial : Ready (new inst).circuit :=
    ⟨rfl, rfl, fun _ => by simp [new, defaultCircuit, CircuitBreaker.withLimits]⟩
  exact machine.invariant kept initial inputs

private theorem requests_append (first second : List Effect) :
    requests (first ++ second) = requests first ++ requests second := List.filterMap_append

/-- Without a recovery the requests of a run stay within the budget of its circuit. -/
theorem requests_within {since : ℤ} {n : ℕ} {state : SymbolState} {inputs : List SymbolInput}
    {now : ℤ} (budget : Budget since now n state.circuit)
    (unrecovered : ∀ e ∈ machine.effects state inputs, ¬e.marksRecovered)
    (ordered : (inputs.filterMap SymbolInput.clock?).Pairwise (· ≤ ·))
    (bounds : ∀ time ∈ inputs.filterMap SymbolInput.clock?,
      now ≤ time.toInt ∧ time.toInt + 30000000000 < 2 ^ 63)
    (window : ∀ time ∈ requests (machine.effects state inputs),
      since ≤ time.toInt ∧ time.toInt < since + 30000000000) :
    n + (requests (machine.effects state inputs)).length ≤ 5 := by
  induction inputs generalizing state n now with
  | nil => exact budget.le_five
  | cons input rest ih =>
    rw [Machine.effects_cons] at unrecovered window
    rw [Machine.effects_cons, requests_append, List.length_append, ← Nat.add_assoc]
    have silent : ∀ e ∈ machine.answer state input, ¬e.marksRecovered := fun e member =>
      unrecovered e (List.mem_append_left _ member)
    have later : ∀ e ∈ machine.effects (machine.next state input) rest, ¬e.marksRecovered :=
      fun e member => unrecovered e (List.mem_append_right _ member)
    rw [requests_append] at window
    have inside : ∀ time ∈ requests (machine.answer state input),
        since ≤ time.toInt ∧ time.toInt < since + 30000000000 := fun time member =>
      window time (List.mem_append_left _ member)
    have others : ∀ time ∈ requests (machine.effects (machine.next state input) rest),
        since ≤ time.toInt ∧ time.toInt < since + 30000000000 := fun time member =>
      window time (List.mem_append_right _ member)
    cases clock : input.clock? with
    | none =>
      rw [List.filterMap_cons, clock] at ordered bounds
      obtain ⟨nothing, same⟩ := idle_handle clock state
      have none : (requests (machine.answer state input)).length = 0 := by
        rw [List.length_eq_zero_iff]
        exact nothing
      have kept : Budget since now n (machine.next state input).circuit := by
        change Budget since now n (handle input ⟨state, []⟩).state.circuit
        rwa [same]
      rw [none]
      exact ih kept later ordered bounds others
    | some time =>
      rw [List.filterMap_cons, clock] at ordered bounds
      obtain ⟨first, ordered⟩ := List.pairwise_cons.mp ordered
      obtain ⟨arrived, room⟩ := bounds time List.mem_cons_self
      rcases pays_handle clock state with ⟨e, member, recovered⟩ | ⟨times, charged⟩
      · exact absurd recovered (silent e member)
      · have spent : 0 < (requests (machine.answer state input)).length →
            since ≤ time.toInt ∧ time.toInt < since + 30000000000 := by
          intro positive
          obtain ⟨asked, member⟩ := List.exists_mem_of_length_pos positive
          rw [← times asked member]
          exact inside asked member
        refine ih ((budget.mono arrived).charged room charged spent) later ordered ?_ others
        intro next member
        refine ⟨Int64.le_iff_toInt_le.mp (first next member), ?_⟩
        exact (bounds next (List.mem_cons_of_mem _ member)).2

/-- As long as no recovery succeeds and the clock does not run back, a symbol requests at most five
recovery snapshots in any thirty seconds: whatever happened before, and however many events, ticks
and overflows there are. -/
theorem requests_le (inst : InstrumentDefinition) (earlier inputs : List SymbolInput) {since : ℤ}
    (unrecovered : ∀ e ∈ machine.effects (machine.final (new inst) earlier) inputs,
      ¬e.marksRecovered)
    (ordered : (inputs.filterMap SymbolInput.clock?).Pairwise (· ≤ ·))
    (room : ∀ time ∈ inputs.filterMap SymbolInput.clock?, time.toInt + 30000000000 < 2 ^ 63)
    (window : ∀ time ∈ requests (machine.effects (machine.final (new inst) earlier) inputs),
      since ≤ time.toInt ∧ time.toInt < since + 30000000000) :
    (requests (machine.effects (machine.final (new inst) earlier) inputs)).length ≤ 5 := by
  have ready := ready inst earlier
  generalize machine.final (new inst) earlier = state at unrecovered window ready ⊢
  have standing : Standing since Int64.minValue.toInt 0 state.circuit := by
    cases holds : state.circuit.openUntil with
    | none => exact .closed holds (Nat.zero_le _)
    | some limit =>
      exact .opened holds (Nat.zero_le _) fun positive => absurd positive (lt_irrefl 0)
  have budget : Budget since Int64.minValue.toInt 0 state.circuit :=
    ⟨ready, fun positive => absurd positive (lt_irrefl 0), standing⟩
  have within := requests_within budget unrecovered ordered (fun time member => ?_) window
  · rwa [Nat.zero_add] at within
  · exact ⟨time.minValue_le_toInt, room time member⟩

/-- A gap, and a tick in each of the next eight seconds, without a snapshot. -/
def outage : List SymbolInput :=
  .delta ⟨9, 9, 0, [], []⟩ 64 0 0 none ::
    (List.range 8).map fun k => .retry (.ofNat (1000000000 * (k + 1))) none

/-- The circuit opens during the outage. -/
theorem requests_of_outage :
    (requests (machine.effects (machine.final (new (Normalize.bitcoin .binanceSpot .spot))
      [.delta ⟨1, 1, 0, [], []⟩ 64 0 0 none]) outage)).length ≤ 5 := by
  -- the bounds are evaluated along the lists; there are too many times to try them all
  have window : (requests (machine.effects
      (machine.final (new (Normalize.bitcoin .binanceSpot .spot))
        [.delta ⟨1, 1, 0, [], []⟩ 64 0 0 none]) outage)).all
      (fun time => decide ((0 : ℤ) ≤ time.toInt ∧ time.toInt < 0 + 30000000000)) := by decide
  have room : (outage.filterMap SymbolInput.clock?).all
      (fun time => decide (time.toInt + 30000000000 < 2 ^ 63)) := by decide
  exact requests_le _ _ outage (by decide) (by decide)
    (fun time member => of_decide_eq_true (List.all_eq_true.mp room time member))
    fun time member => of_decide_eq_true (List.all_eq_true.mp window time member)

end SymbolState

end TradingConnectivity.Shard
