import TradingConnectivity.Connector.Connection
import TradingConnectivity.Normalize.FuturesHeaders
import TradingConnectivity.Normalize.SpotHeaders

/-! # What a connection publishes

The messages of a connection are those that the normalizer returns for its frames, one delivery
each. A message is lost when it does not fit the buffer or the publication refuses it, and a call
that fails may have taken numbers; otherwise the subscribers receive all messages and see all
numbers (`Connection.account_run`).
-/

namespace TradingConnectivity.Connector

open ConnectorCore Normalize
open Adapter (ConnectionManager ManagerInput ManagerEffect)

namespace Connection

/-- The type of a message that a connection makes of an event. -/
def IsMarketData (kind : MessageType) : Prop := kind ∈ [.bestBidOffer, .bookDelta, .trade,
  .markPrice, .fundingRate, .liquidation]

instance (kind : MessageType) : Decidable (IsMarketData kind) :=
  inferInstanceAs (Decidable (kind ∈ _))

/-- A message of market data that the connection has made. -/
structure MadeBy (task : Task) (msg : NormalizedMessage) : Prop where
  announced : msg.header.messageType = msg.messageType
  connection : msg.header.connectionId = task.ctx.connectionId
  data : IsMarketData msg.messageType

theorem MadeBy.withPublishTs {task : Task} {msg : NormalizedMessage} (made : MadeBy task msg)
    (publishTs : Int64) : MadeBy task (msg.withPublishTs publishTs) := by
  cases msg <;> exact ⟨made.announced, made.connection, made.data⟩

/-- The messages of a call carry the connection of the call. -/
theorem madeBy_of_perform {task : Task} {call : Call} (own : call.ctx = task.ctx)
    {seq next : UInt64} {msgs : List NormalizedMessage}
    (performed : call.perform seq = (.ok msgs, next)) {msg : NormalizedMessage}
    (member : msg ∈ msgs) : MadeBy task msg := by
  obtain ⟨event | event, inst, ctx, recvTs⟩ := call
  · simp only [Call.perform] at performed
    cases ran : (Spot.normalizeSpotEvent event inst ctx recvTs).run.run seq with
    | mk result after =>
    rw [ran] at performed
    rcases result with f | (_ | made)
    · cases (Prod.mk.inj performed).1
    · cases (Prod.mk.inj performed).1
      cases member
    · cases (Prod.mk.inj performed).1
      obtain rfl := List.mem_singleton.mp member
      obtain ⟨-, data, eventTs, header⟩ := Spot.normalized_header ran
      refine ⟨congrArg MessageHeader.messageType header, ?_, ?_⟩
      · rw [header, ← own]
        rfl
      · rcases data with kind | kind | kind <;> simp [IsMarketData, kind]
  · simp only [Call.perform] at performed
    cases ran : (Futures.normalizeFuturesEvent event inst ctx recvTs).run.run seq with
    | mk result after =>
    rw [ran] at performed
    cases result with
    | error f => cases (Prod.mk.inj performed).1
    | ok made =>
      cases (Prod.mk.inj performed).1
      obtain ⟨⟨number, eventTs, header⟩, kinds⟩ := Futures.normalized_messages ran member
      refine ⟨congrArg MessageHeader.messageType header, ?_, ?_⟩
      · rw [header, ← own]
        rfl
      · rcases kinds with ticker | ⟨du, bd, -, rfl⟩
        · rcases ticker with kind | kind | kind | kind | kind <;> simp [IsMarketData, kind]
        · exact List.mem_cons_of_mem _ List.mem_cons_self

private theorem ctx_of_call? {task : Task} {frame : Frame} {call : Call}
    (called : call? task frame = some call) : call.ctx = task.ctx := by
  simp only [call?, Option.bind_eq_bind, Option.bind_eq_some_iff, Option.pure_def,
    Option.some.injEq] at called
  obtain ⟨event, -, symbol, -, inst, -, rfl⟩ := called
  rfl

private theorem madeBy_make {task : Task} {frame : Frame} {seq : UInt64} :
    ∀ msg ∈ (make task frame seq).1, MadeBy task msg := by
  intro msg member
  rw [make] at member
  split at member
  · cases member
  · next call called =>
    cases performed : call.perform seq with | mk outcome next =>
    rw [performed] at member
    obtain ⟨plain, inside, rfl⟩ := List.mem_map.mp member
    cases outcome with
    | error f => cases inside
    | ok msgs => exact (madeBy_of_perform (ctx_of_call? called) performed inside).withPublishTs _

theorem madeBy_makeAll {task : Task} {frames : List Frame} {seq : UInt64} :
    ∀ msg ∈ (makeAll task frames seq).1, MadeBy task msg := by
  induction frames generalizing seq with
  | nil => exact fun msg member => absurd member List.not_mem_nil
  | cons frame rest ih => exact List.forall_mem_append.mpr ⟨madeBy_make, ih⟩

/-! ## Accounts -/

/-- No call took numbers without returning its messages, and no message was lost. -/
def Lossless (task : Task) (frames : List Frame) (deliveries : List Delivery) : Prop :=
  (∀ frame ∈ frames, ∀ call ∈ call? task frame, ¬call.Wasteful) ∧
    ∀ delivery ∈ deliveries, delivery.isAccepted = true

private theorem lossless_append {task : Task} {first second : List Frame}
    {one two : List Delivery} :
    Lossless task (first ++ second) (one ++ two) ↔
      Lossless task first one ∧ Lossless task second two := by
  simp only [Lossless, List.forall_mem_append]
  exact and_and_and_comm

/-- What becomes of the messages of some frames, and of the numbers that their calls take. -/
structure Account (task : Task) (frames : List Frame) (seq : UInt64) (deliveries : List Delivery)
    (next : UInt64) : Prop where
  counter : next = (makeAll task frames seq).2
  numbers : Tally seq (2 * frames.length) (shown deliveries) next (Lossless task frames deliveries)
  contents : List.Forall₂ Carries (makeAll task frames seq).1 deliveries

theorem Account.nil (task : Task) (seq : UInt64) : Account task [] seq [] seq :=
  ⟨rfl, (Tally.nil seq).congr (by simp [Lossless]), .nil⟩

/-- The messages of a call, one delivery each. -/
theorem account_messages (frame : Frame) (work : Work Connection Delivery)
    {msgs : List NormalizedMessage} {seq : UInt64}
    (numbered : numbers msgs = List.iterate (· + 1) seq msgs.length)
    (announced : ∀ msg ∈ msgs, msg.header.messageType = msg.messageType) :
    ∃ buf deliveries, msgs.foldl (fun work msg => publish frame msg work) work =
        ⟨{ work.state with buf }, work.effects ++ deliveries⟩ ∧
      Tally seq msgs.length (shown deliveries) (seq + .ofNat msgs.length)
        (∀ delivery ∈ deliveries, delivery.isAccepted = true) ∧
      List.Forall₂ Carries (msgs.map fun msg => msg.withPublishTs (frame.clock msg))
        deliveries := by
  induction msgs generalizing seq work with
  | nil =>
    have nothing : Tally seq 0 (shown []) (seq + .ofNat 0)
        (∀ delivery ∈ ([] : List Delivery), delivery.isAccepted = true) := by
      have zero : seq + .ofNat 0 = seq := UInt64.add_zero seq
      rw [zero]
      exact (Tally.nil seq).congr (by simp)
    exact ⟨work.state.buf, [], by simp, nothing, .nil⟩
  | cons msg rest ih =>
    obtain ⟨first, later⟩ := List.cons.inj numbered
    obtain ⟨announces, announced⟩ := List.forall_mem_cons.mp announced
    have number : msg.header.sequenceNumber = seq := first
    have carries := publishOne_carries msg (frame.clock msg) (frame.offered msg) work.state.buf
      announces
    have one := tally_publishOne msg (frame.clock msg) (frame.offered msg) work.state.buf
    obtain ⟨buf, deliveries, ran, tally, contents⟩ := ih (publish frame msg work) later announced
    rw [number] at one
    rw [publish] at ran
    cases published : publishOne msg (frame.clock msg) (frame.offered msg) work.state.buf with
    | mk delivery after =>
    rw [published] at carries one ran
    refine ⟨buf, delivery :: deliveries, ?_, ?_, .cons carries contents⟩
    · rw [List.foldl_cons, publish, published, ran, Work.emit_effects, List.append_assoc]
      rfl
    · have both := one.append tally
      have count : seq + 1 + .ofNat rest.length = seq + UInt64.ofNat (rest.length + 1) := by
        rw [UInt64.ofNat_add, UInt64.add_comm (.ofNat rest.length), ← UInt64.add_assoc]
        rfl
      rw [count, ← shown_append, Nat.add_comm] at both
      exact both.congr (by rw [List.forall_mem_cons])

private theorem onOutcome_error (frame : Frame) (f : Failure AnyError)
    (work : Work Connection Delivery) :
    ∃ running, onOutcome frame (.error f) work =
      ⟨{ work.state with running }, work.effects ++ []⟩ := by
  rw [List.append_nil]
  cases f with
  | returned error => exact ⟨work.state.running, rfl⟩
  | panicked => exact ⟨false, rfl⟩

/-- What a frame does. -/
theorem account_frame (task : Task) (frame : Frame) (work : Work Connection Delivery) :
    ∃ seq buf running deliveries, onFrame task frame work =
        ⟨⟨work.state.manager, seq, buf, running⟩, work.effects ++ deliveries⟩ ∧
      seq = (make task frame work.state.seq).2 ∧
      Tally work.state.seq 2 (shown deliveries) seq (Lossless task [frame] deliveries) ∧
      List.Forall₂ Carries (make task frame work.state.seq).1 deliveries := by
  rw [onFrame, make]
  cases called : call? task frame with
  | none =>
    refine ⟨work.state.seq, work.state.buf, work.state.running, [], by simp, rfl, ?_, .nil⟩
    exact ((Tally.nil _).mono (Nat.zero_le 2)).congr (by simp [Lossless, called])
  | some call =>
    have accounted := call.accounted work.state.seq
    cases performed : call.perform work.state.seq with | mk outcome next =>
    rw [performed] at accounted
    simp only [performed]
    cases accounted with
    | @early f fails =>
      have spared : ¬call.Wasteful := fun wasteful => by simp [wasteful.1] at fails
      obtain ⟨running, ended⟩ := onOutcome_error frame f
        (work.update ({ · with seq := work.state.seq }))
      refine ⟨_, _, running, [], ended, rfl, ?_, .nil⟩
      exact ((Tally.nil _).mono (Nat.zero_le 2)).congr (by simp [Lossless, called, spared])
    | @late f last passes fails taken few =>
      have wasteful : call.Wasteful := ⟨passes, by simp [fails]⟩
      obtain ⟨running, ended⟩ := onOutcome_error frame f (work.update ({ · with seq := next }))
      refine ⟨next, _, running, [], ended, rfl, ?_, .nil⟩
      exact (Tally.lost taken few).congr (by simp [Lossless, called, wasteful])
    | @produced msgs passes builds numbered few =>
      have spared : ¬call.Wasteful := fun wasteful => wasteful.2 builds
      obtain ⟨buf, deliveries, ran, tally, contents⟩ := account_messages frame
        (work.update ({ · with seq := work.state.seq + .ofNat msgs.length })) numbered
        fun msg member => (madeBy_of_perform (ctx_of_call? called) performed member).announced
      exact ⟨_, buf, work.state.running, deliveries, ran, rfl,
        (tally.mono few).congr (by simp [Lossless, called, spared]), contents⟩

/-- What the effects of the manager lead to, one after the other. -/
theorem account_effects (task : Task) (effects : List (ManagerEffect Frame))
    (work : Work Connection Delivery) :
    ∃ seq buf running deliveries, effects.foldl (perform task) work =
        ⟨⟨work.state.manager, seq, buf, running⟩, work.effects ++ deliveries⟩ ∧
      Account task (effects.filterMap ManagerEffect.frame?) work.state.seq deliveries seq := by
  induction effects generalizing work with
  | nil => exact ⟨_, _, _, [], by simp; rfl, .nil task _⟩
  | cons effect rest ih =>
    rw [List.foldl_cons]
    cases effect with
    | onFrame frame isBinary =>
      obtain ⟨seq, buf, running, one, ran, counter, tally, contents⟩ :=
        account_frame task frame work
      obtain ⟨seq', buf', running', two, later, account⟩ := ih (onFrame task frame work)
      rw [ran, counter] at account
      refine ⟨seq', buf', running', one ++ two, ?_, ?_, ?_, ?_⟩
      · rw [perform, later, ran, List.append_assoc]
      · exact account.counter
      · rw [counter] at tally
        rw [shown_append]
        have both :
            Lossless task ([frame] ++ rest.filterMap ManagerEffect.frame?) (one ++ two) ↔ _ :=
          lossless_append
        have twice : 2 + 2 * (rest.filterMap ManagerEffect.frame?).length =
            2 * ((rest.filterMap ManagerEffect.frame?).length + 1) := by omega
        have all := (tally.append account.numbers).congr both.symm
        rwa [twice] at all
      · exact List.rel_append contents account.contents
    | sendPing | sendPong | ended | countMessageIn | countReconnect | sleep => exact ih work

/-- A step of a connection. -/
theorem account_step (task : Task) (connection : Connection) (input : ManagerInput Frame) :
    Account task (connection.frames input) connection.seq
      ((machine task).answer connection input) ((machine task).next connection input).seq := by
  change Account task _ _ (handle task input ⟨connection, []⟩).effects
    (handle task input ⟨connection, []⟩).state.seq
  rw [handle, frames]
  cases alive : connection.running with
  | false =>
    simp only [Bool.false_eq_true, if_false]
    exact .nil task _
  | true =>
    simp only [if_true]
    obtain ⟨seq, buf, running, deliveries, ran, account⟩ := account_effects task
      (ConnectionManager.handle input ⟨connection.manager, []⟩).effects
      ((⟨connection, []⟩ : Work Connection Delivery).update fun s => { s with
        manager := (ConnectionManager.handle input ⟨connection.manager, []⟩).state })
    rw [ran]
    exact account

/-! ## Runs -/

/-- In a run of a connection nothing was lost. -/
def Intact (task : Task)
    (events : List (Machine.Event Connection (ManagerInput Frame) (List Delivery))) : Prop :=
  ∀ event ∈ events, Lossless task (event.before.frames event.input) event.output

/-- The frames that the manager forwards in a run. -/
def forwarded (task : Task) (connection : Connection) (inputs : List (ManagerInput Frame)) :
    List Frame := (machine task).log frames connection inputs

/-- A run of a connection, which takes two numbers for each frame at most. -/
theorem account_run (task : Task) (connection : Connection) (inputs : List (ManagerInput Frame)) :
    Tally connection.seq (2 * (forwarded task connection inputs).length)
        (shown ((machine task).effects connection inputs))
        ((machine task).final connection inputs).seq
        (Intact task ((machine task).history connection inputs)) ∧
      List.Forall₂ Carries ((machine task).log (made task) connection inputs)
        ((machine task).effects connection inputs) := by
  induction inputs generalizing connection with
  | nil => exact ⟨(Tally.nil _).congr (by simp [Intact]), .nil⟩
  | cons input rest ih =>
    have account := account_step task connection input
    obtain ⟨tally, contents⟩ := ih ((machine task).next connection input)
    have frames : forwarded task connection (input :: rest) = connection.frames input ++
        forwarded task ((machine task).next connection input) rest := rfl
    rw [Machine.effects_cons, shown_append, frames, List.length_append, Nat.mul_add]
    refine ⟨(account.numbers.append tally).congr ?_, ?_⟩
    · rw [Intact, Intact, Machine.history_cons, List.forall_mem_cons]
    · exact List.rel_append account.contents contents

end Connection

end TradingConnectivity.Connector
