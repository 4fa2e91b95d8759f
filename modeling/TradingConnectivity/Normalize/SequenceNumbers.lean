import TradingConnectivity.Machine.History
import TradingConnectivity.Normalize.Numbering

/-! # Sequence numbers of a run

One counter numbers the messages of all calls, spot and futures. A run leaves no hole exactly when
none of its calls fails after it has taken a number.
-/

namespace TradingConnectivity.Normalize

open ConnectorCore

/-! ## Calls -/

abbrev AnyError := Spot.NormalizeError ⊕ Futures.NormalizeError

def Failure.map {ε ε' : Type} (change : ε → ε') : Failure ε → Failure ε'
  | .returned error => .returned (change error)
  | .panicked => .panicked

/-- One call of either normalizer. -/
structure Call where
  event : Spot.SpotEvent ⊕ Futures.FuturesEvent
  inst : InstrumentDefinition
  ctx : NormalizeCtx
  recvTs : Int64
deriving DecidableEq, Repr

abbrev Outcome := Except (Failure AnyError) (List NormalizedMessage)

namespace Call

/-- The outcome of a call and the counter after it. -/
def perform (call : Call) (seq : UInt64) : Outcome × UInt64 :=
  match call.event with
  | .inl event =>
    let (result, next) := (Spot.normalizeSpotEvent event call.inst call.ctx call.recvTs).run.run seq
    ((result.map Option.toList).mapError (Failure.map .inl), next)
  | .inr event =>
    let (result, next) :=
      (Futures.normalizeFuturesEvent event call.inst call.ctx call.recvTs).run.run seq
    (result.mapError (Failure.map .inr), next)

/-- The failure of a call before it takes a number. -/
def early (call : Call) : Option (Failure AnyError) :=
  match call.event with
  | .inl _ => none
  | .inr event => (event.earlyFailure call.inst).map (Failure.map .inr)

/-- The failure of a call after it has taken a number, if it gets there. -/
def late (call : Call) : Option (Failure AnyError) :=
  match call.event with
  | .inl event => (event.lateFailure call.inst).map (Failure.map .inl)
  | .inr event => (event.lateFailure call.inst).map (Failure.map .inr)

/-- The call fails after it has taken a number. -/
def Wasteful (call : Call) : Prop := call.early = none ∧ call.late ≠ none

instance (call : Call) : Decidable call.Wasteful := inferInstanceAs (Decidable (_ ∧ _))

/-- The call does not return. -/
def Panics (call : Call) : Prop := call.early.or call.late = some .panicked

instance (call : Call) : Decidable call.Panics := inferInstanceAs (Decidable (_ = _))

end Call

private theorem Accounted.mapError {ε ε' : Type} {early late : Option (Failure ε)} {seq : UInt64}
    {result : Except (Failure ε) (List NormalizedMessage)} {next : UInt64}
    (change : Failure ε → Failure ε') (accounted : Accounted early late seq (result, next)) :
    Accounted (early.map change) (late.map change) seq (result.mapError change, next) := by
  cases accounted with
  | early fails => exact .early (by rw [fails]; rfl)
  | late passes fails taken few => exact .late (by rw [passes]; rfl) (by rw [fails]; rfl) taken few
  | produced passes builds numbered few =>
    exact .produced (by rw [passes]; rfl) (by rw [builds]; rfl) numbered few

theorem Call.accounted (call : Call) (seq : UInt64) :
    Accounted call.early call.late seq (call.perform seq) := by
  obtain ⟨event | event, inst, ctx, recvTs⟩ := call
  · exact (Spot.accounted inst ctx recvTs seq event).mapError (Failure.map Sum.inl)
  · exact (Futures.accounted inst ctx recvTs seq event).mapError (Failure.map Sum.inr)

/-- Whether a call panics does not depend on the counter. -/
private theorem Call.panics_iff (call : Call) (seq : UInt64) :
    (call.perform seq).1 = .error .panicked ↔ call.Panics := by
  have accounted := call.accounted seq
  rw [Call.Panics]
  generalize call.perform seq = result at accounted ⊢
  cases accounted with
  | early fails => simp [fails]
  | late passes fails taken => simp [passes, fails]
  | produced passes builds numbered => simp [passes, builds]

/-! ## Runs -/

/-- The counter is the state of the calls that share it. -/
def machine : Machine UInt64 Call Outcome where
  step seq call := ((call.perform seq).2, (call.perform seq).1)

/-- The calls of a run that are made: a panic ends it. -/
def reached : List Call → List Call
  | [] => []
  | call :: rest => if call.Panics then [call] else call :: reached rest

def produced : Outcome → List NormalizedMessage
  | .ok messages => messages
  | .error _ => []

/-- All messages of a run. -/
def runMessages (calls : List Call) (seq : UInt64) : List NormalizedMessage :=
  (machine.history seq calls).flatMap fun event => produced event.output

/-- The numbers of a run have no hole, and its errors leave the counter alone. -/
structure Accounts (calls : List Call) (seq : UInt64) : Prop where
  consecutive : numbers (runMessages calls seq) =
    List.iterate (· + 1) seq (runMessages calls seq).length
  final : machine.final seq calls = seq + UInt64.ofNat (runMessages calls seq).length
  errors : ∀ event ∈ machine.history seq calls, ∀ error, event.output = .error (.returned error) →
    machine.next event.before event.input = event.before

private theorem runMessages_cons (call : Call) (rest : List Call) (seq : UInt64) :
    runMessages (call :: rest) seq =
      produced (machine.answer seq call) ++ runMessages rest (machine.next seq call) := rfl

/-- Counting up one by one adds the number of steps. -/
private theorem iterate_succ (seq : UInt64) (n : ℕ) : (· + 1)^[n] seq = seq + UInt64.ofNat n := by
  induction n with
  | zero => simp
  | succ n ih =>
    rw [Function.iterate_succ_apply', ih, UInt64.ofNat_add, UInt64.add_assoc]
    rfl

namespace Accounts

variable {call : Call} {rest : List Call} {seq : UInt64}

/-- A run goes on after a call that numbers its messages. -/
theorem cons_produced {messages : List NormalizedMessage}
    (performed : call.perform seq = (.ok messages, seq + UInt64.ofNat messages.length))
    (numbered : numbers messages = List.iterate (· + 1) seq messages.length) :
    Accounts (call :: rest) seq ↔ Accounts rest (seq + UInt64.ofNat messages.length) := by
  have next : machine.next seq call = seq + UInt64.ofNat messages.length :=
    congrArg Prod.snd performed
  have answer : machine.answer seq call = .ok messages := congrArg Prod.fst performed
  have all : runMessages (call :: rest) seq =
      messages ++ runMessages rest (seq + UInt64.ofNat messages.length) := by
    rw [runMessages_cons, answer, next]
    rfl
  have numbers_all : numbers (runMessages (call :: rest) seq) =
      List.iterate (· + 1) seq messages.length ++
        numbers (runMessages rest (seq + UInt64.ofNat messages.length)) := by
    rw [all, numbers, List.map_append]
    exact congrArg (· ++ _) numbered
  have count : (runMessages (call :: rest) seq).length =
      messages.length + (runMessages rest (seq + UInt64.ofNat messages.length)).length := by
    rw [all, List.length_append]
  constructor
  · rintro ⟨consecutive, final, errors⟩
    rw [numbers_all, count, List.iterate_add, iterate_succ] at consecutive
    rw [Machine.final_cons, next, count, UInt64.ofNat_add, ← UInt64.add_assoc] at final
    refine ⟨List.append_cancel_left consecutive, final, ?_⟩
    rw [Machine.history_cons, next] at errors
    exact fun event mem => errors event (List.mem_cons_of_mem _ mem)
  · rintro ⟨consecutive, final, errors⟩
    refine ⟨?_, ?_, ?_⟩
    · rw [numbers_all, count, List.iterate_add, iterate_succ, consecutive]
    · rw [Machine.final_cons, next, final, count, UInt64.ofNat_add, UInt64.add_assoc]
    · rw [Machine.history_cons, next]
      intro event mem error failed
      rcases List.mem_cons.mp mem with rfl | later
      · exact absurd (answer.symm.trans failed) (by simp)
      · exact errors event later error failed

/-- A run goes on after a call that fails without taking a number. -/
theorem cons_early {f : Failure AnyError} (performed : call.perform seq = (.error f, seq)) :
    Accounts (call :: rest) seq ↔ Accounts rest seq := by
  have next : machine.next seq call = seq := congrArg Prod.snd performed
  have answer : machine.answer seq call = .error f := congrArg Prod.fst performed
  have all : runMessages (call :: rest) seq = runMessages rest seq := by
    rw [runMessages_cons, answer, next]
    rfl
  constructor
  · rintro ⟨consecutive, final, errors⟩
    rw [all] at consecutive final
    rw [Machine.final_cons, next] at final
    rw [Machine.history_cons, next] at errors
    exact ⟨consecutive, final, fun event mem => errors event (List.mem_cons_of_mem _ mem)⟩
  · rintro ⟨consecutive, final, errors⟩
    refine ⟨by rw [all]; exact consecutive, by rw [all, Machine.final_cons, next]; exact final, ?_⟩
    rw [Machine.history_cons, next]
    intro event mem error failed
    rcases List.mem_cons.mp mem with rfl | later
    · exact next
    · exact errors event later error failed

/-- A call that returns an error after taking a number leaves a hole. -/
private theorem not_cons_late {error : AnyError} {next : UInt64}
    (performed : call.perform seq = (.error (.returned error), next)) (taken : next ≠ seq) :
    ¬Accounts (call :: rest) seq := by
  intro accounts
  have unchanged := accounts.errors _ List.mem_cons_self error (congrArg Prod.fst performed)
  exact taken ((congrArg Prod.snd performed).symm.trans unchanged)

/-- A call that panics after taking a number leaves a hole. -/
private theorem not_single_late {f : Failure AnyError} {next : UInt64}
    (performed : call.perform seq = (.error f, next)) (taken : next ≠ seq) :
    ¬Accounts [call] seq := by
  intro accounts
  have answer : machine.answer seq call = .error f := congrArg Prod.fst performed
  have none : runMessages [call] seq = [] := by
    rw [runMessages_cons, answer]
    rfl
  have final := accounts.final
  rw [none, Machine.final_cons, Machine.final_nil] at final
  have unchanged : machine.next seq call = seq := by simpa using final
  exact taken ((congrArg Prod.snd performed).symm.trans unchanged)

theorem nil (seq : UInt64) : Accounts [] seq :=
  ⟨rfl, (UInt64.add_zero seq).symm, fun _ mem => absurd mem List.not_mem_nil⟩

end Accounts

/-- A run leaves no hole exactly when no call that it makes fails after taking a number. -/
theorem run_accounts_iff (calls : List Call) (seq : UInt64) :
    Accounts (reached calls) seq ↔ ∀ call ∈ reached calls, ¬call.Wasteful := by
  induction calls generalizing seq with
  | nil =>
    exact iff_of_true (.nil seq) fun call mem => absurd mem List.not_mem_nil
  | cons call rest ih =>
    have accounted := call.accounted seq
    rw [reached]
    cases performed : call.perform seq with
    | mk outcome next =>
    rw [performed] at accounted
    cases accounted with
    | early fails =>
      have frugal : ¬call.Wasteful := fun wasteful => by simp [wasteful.1] at fails
      split
      · rw [Accounts.cons_early performed]
        simpa [frugal] using Accounts.nil seq
      · rw [Accounts.cons_early performed, ih, List.forall_mem_cons]
        simp [frugal]
    | produced passes builds numbered =>
      have returns : ¬call.Panics := by simp [Call.Panics, passes, builds]
      have frugal : ¬call.Wasteful := fun wasteful => wasteful.2 builds
      rw [if_neg returns, Accounts.cons_produced performed numbered, ih, List.forall_mem_cons]
      simp [frugal]
    | @late f last passes fails taken =>
      have wasteful : call.Wasteful := ⟨passes, by simp [fails]⟩
      split
      · exact iff_of_false (Accounts.not_single_late performed taken)
          fun frugal => frugal call List.mem_cons_self wasteful
      next returns =>
        refine iff_of_false ?_ fun frugal => frugal call List.mem_cons_self wasteful
        cases f with
        | returned error => exact Accounts.not_cons_late performed taken
        | panicked => exact absurd ((call.panics_iff seq).mp (congrArg Prod.fst performed)) returns

def malformedTrade : Spot.SpotTrade where
  eventTimeMs := 1748000000001
  tradeId := 3000001
  price := "n/a"
  qty := "0.015"
  tradeTimeMs := 1748000000000
  isBuyerMaker := false

/-- A malformed trade is rejected and still uses up a number. -/
theorem rejected_trade_takes_number :
    ¬∀ (calls : List Call) (seq : UInt64), Accounts (reached calls) seq := by
  intro accounts
  have trade := (accounts [⟨.inl (.trade malformedTrade), bitcoin .binanceSpot .spot,
    ⟨.binanceSpot, .spot, 0, 1⟩, 1⟩] 7).final
  exact absurd trade (by decide)

end TradingConnectivity.Normalize
