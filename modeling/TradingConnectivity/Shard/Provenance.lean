import TradingConnectivity.Shard.Moves

/-! # Where the book of a symbol comes from

At every moment of a run the book of a symbol is an origin with a chain of received depth events
applied to it: either the empty book just before the first event of the run or a fetched snapshot,
and events of which each begins where its predecessor ends (`book_backed`). This holds for stale
books as well, so a book never contains a jump over missing events, whatever was lost, buffered,
replayed or refused on the way.
-/

namespace TradingConnectivity.Shard

open ConnectorCore (InstrumentDefinition)
open MarketData

/-- Every event begins one past the end of its predecessor. -/
def Follows : UInt64 → List BookDelta → Prop
  | _, [] => True
  | last, d :: rest => d.firstUpdateId = last + 1 ∧ Follows d.finalUpdateId rest

/-- The first event contains or follows the position after the origin, and the others follow. -/
def Chain (origin : UInt64) : List BookDelta → Prop
  | [] => True
  | d :: rest =>
    origin < d.finalUpdateId ∧ d.firstUpdateId ≤ origin + 1 ∧ Follows d.finalUpdateId rest

/-- Where the events of a chain end. -/
abbrev chainEnd (origin : UInt64) (run : List BookDelta) : UInt64 :=
  reach BookDelta.finalUpdateId origin run

theorem Follows.concat {last : UInt64} {run : List BookDelta} {d : BookDelta}
    (follows : Follows last run) (next : d.firstUpdateId = chainEnd last run + 1) :
    Follows last (run ++ [d]) := by
  induction run generalizing last with
  | nil => exact ⟨next, trivial⟩
  | cons head rest ih => exact ⟨follows.1, ih follows.2 next⟩

theorem Chain.concat {origin : UInt64} {run : List BookDelta} {d : BookDelta}
    (chain : Chain origin run) (nonempty : run ≠ [])
    (next : d.firstUpdateId = chainEnd origin run + 1) : Chain origin (run ++ [d]) := by
  obtain ⟨head, rest, rfl⟩ := List.exists_cons_of_ne_nil nonempty
  exact ⟨chain.1, chain.2.1, chain.2.2.concat next⟩

variable {received more : List BookDelta} {snapshots : List BookSnapshot}

/-- Where a chain may start. -/
inductive Origin (received : List BookDelta) (snapshots : List BookSnapshot) :
    OrderBook → UInt64 → Prop
  | seeded {d : BookDelta} (first : d ∈ received) :
      Origin received snapshots .new (SymbolState.seedId d)
  | fetched {snapshot : BookSnapshot} (member : snapshot ∈ snapshots) :
      Origin received snapshots (OrderBook.new.applySnapshot snapshot) snapshot.updateId

/-- What the state of the validator says about the book. -/
inductive Backed (received : List BookDelta) (snapshots : List BookSnapshot) :
    ValidationState → OrderBook → Prop
  | awaiting {book : OrderBook} (same : book.SameMarket .new) :
      Backed received snapshots .awaitingSnapshot book
  | bridging {book base : OrderBook} {id : UInt64} (begins : Origin received snapshots base id)
      (same : book.SameMarket base) : Backed received snapshots (.bridging id) book
  | active {book base : OrderBook} {origin : UInt64} {run : List BookDelta}
      (begins : Origin received snapshots base origin) (chain : Chain origin run)
      (nonempty : run ≠ []) (members : ∀ d ∈ run, d ∈ received)
      (same : book.SameMarket (base.applyDeltas run)) :
      Backed received snapshots (.active (chainEnd origin run)) book
  | stale {book base : OrderBook} {origin : UInt64} {run : List BookDelta}
      (begins : Origin received snapshots base origin) (chain : Chain origin run)
      (members : ∀ d ∈ run, d ∈ received) (same : book.SameMarket (base.applyDeltas run)) :
      Backed received snapshots (.stale (chainEnd origin run)) book

namespace Backed

private theorem of_sameMarket {state : ValidationState} {book other : OrderBook}
    (backed : Backed received snapshots state book) (same : other.SameMarket book) :
    Backed received snapshots state other := by
  cases backed with
  | awaiting shown => exact .awaiting (same.trans shown)
  | bridging begins shown => exact .bridging begins (same.trans shown)
  | active begins chain nonempty members shown =>
    exact .active begins chain nonempty members (same.trans shown)
  | stale begins chain members shown => exact .stale begins chain members (same.trans shown)

theorem mono {state : ValidationState} {book : OrderBook} {others : List BookSnapshot}
    (backed : Backed received snapshots state book) (grows : ∀ d ∈ received, d ∈ more)
    (fetches : ∀ snapshot ∈ snapshots, snapshot ∈ others) : Backed more others state book := by
  have origins : ∀ {base id}, Origin received snapshots base id → Origin more others base id := by
    intro base id begins
    cases begins with
    | seeded first => exact .seeded (grows _ first)
    | fetched member => exact .fetched (fetches _ member)
  cases backed with
  | awaiting same => exact .awaiting same
  | bridging begins same => exact .bridging (origins begins) same
  | active begins chain nonempty members same =>
    exact .active (origins begins) chain nonempty (fun d inside => grows d (members d inside)) same
  | stale begins chain members same =>
    exact .stale (origins begins) chain (fun d inside => grows d (members d inside)) same

/-- A snapshot gives the validator a new origin. -/
theorem onSnapshot {book : OrderBook} {snapshot : BookSnapshot} (member : snapshot ∈ snapshots)
    (v : SequenceValidator) : Backed received snapshots (v.onSnapshot snapshot.updateId).state
      (book.applySnapshot snapshot) :=
  .bridging (.fetched member) ⟨rfl, rfl, rfl⟩

/-- An accepted event extends the chain. -/
theorem extend {origin : UInt64} {book base : OrderBook} {run : List BookDelta} {d : BookDelta}
    (begins : Origin received snapshots base origin) (chain : Chain origin (run ++ [d]))
    (members : ∀ e ∈ run, e ∈ received) (member : d ∈ received)
    (same : book.SameMarket (base.applyDeltas run)) :
    Backed received snapshots (.active d.finalUpdateId) (book.applyDelta d) := by
  have shown : (book.applyDelta d).SameMarket (base.applyDeltas (run ++ [d])) := by
    rw [OrderBook.applyDeltas_append]
    obtain ⟨bids, asks, -⟩ := same
    exact ⟨congrArg (applyLevels · d.bids) bids, congrArg (applyLevels · d.asks) asks, rfl⟩
  have extended := Backed.active begins chain (by simp) (fun e inside => ?_) shown
  · rwa [chainEnd, reach_append_singleton] at extended
  · rcases List.mem_append.mp inside with earlier | last
    · exact members e earlier
    · exact List.mem_singleton.mp last ▸ member

/-- What the validator accepts, the book is given; the rest leaves it alone. -/
theorem validate {v : SequenceValidator} {book : OrderBook} {d : BookDelta}
    (backed : Backed received snapshots v.state book) (member : d ∈ received) :
    Backed received snapshots (v.validate d.firstUpdateId d.finalUpdateId).2.state
      (if (v.validate d.firstUpdateId d.finalUpdateId).1 = .apply then book.applyDelta d
        else book) := by
  rcases v.validate_cases d.firstUpdateId d.finalUpdateId with
    ⟨result, -⟩ | ⟨last, result, -⟩ | ⟨last, result, accepts⟩ | ⟨last, result, position, -⟩
  · rw [result]
    exact backed
  · rw [result]
    exact backed
  · rw [result]
    rw [if_pos rfl]
    rcases accepts with ⟨bridging, past, joins⟩ | ⟨active, follows⟩
    · rw [bridging] at backed
      cases backed with
      | bridging begins same =>
        have chain : Chain last ([] ++ [d]) := ⟨past, joins, trivial⟩
        exact extend begins chain (by simp) member same
    · rw [active] at backed
      cases backed with
      | active begins chain nonempty members same =>
        exact extend begins (chain.concat nonempty follows) members member same
  · rw [result]
    rcases position with ⟨bridging, -⟩ | active
    · rw [bridging] at backed
      cases backed with
      | bridging begins same =>
        have chain : Chain last [] := trivial
        exact .stale begins chain (by simp) same
    · rw [active] at backed
      cases backed with
      | active begins chain nonempty members same => exact .stale begins chain members same

/-- A replay keeps to the rule. -/
theorem replay {v : SequenceValidator} {book : OrderBook} {events : List BufferedDelta}
    (backed : Backed received snapshots v.state book)
    (members : ∀ e ∈ events, e.delta ∈ received) (replayed discarded : ℕ) :
    Backed received snapshots (MarketData.replay spot book v replayed discarded events).2.2.state
      (MarketData.replay spot book v replayed discarded events).2.1 := by
  induction events generalizing v book replayed discarded with
  | nil => exact backed
  | cons e rest ih =>
    have later : ∀ e ∈ rest, e.delta ∈ received := fun e inside =>
      members e (List.mem_cons_of_mem _ inside)
    have step := backed.validate (members e List.mem_cons_self)
    simp only [MarketData.replay, spot]
    generalize v.validate e.delta.firstUpdateId e.delta.finalUpdateId = result at step ⊢
    obtain ⟨result, v'⟩ := result
    cases result with
    | apply => exact ih step later (replayed + 1) discarded
    | discard => exact ih step later replayed (discarded + 1)
    | gap expected actual lastValid => exact step
    | buffering => exact ih step later replayed (discarded + 1)

/-- A recovery starts a new chain from its snapshot. -/
theorem applySnapshot {snapshot : BookSnapshot} {buf : RecoveryBuffer}
    (fetched : snapshot ∈ snapshots) (members : ∀ e ∈ buf.events, e.delta ∈ received)
    (book : OrderBook) (v : SequenceValidator) :
    Backed received snapshots (applySpotSnapshot snapshot book v buf).validator.state
      (applySpotSnapshot snapshot book v buf).book := by
  have drained : ∀ e ∈ (buf.drainAfter snapshot.updateId).1, e.delta ∈ received := fun e inside =>
    members e (List.mem_filter.mp inside).1
  have started : Backed received snapshots (v.onSnapshot snapshot.updateId).state
      (book.applySnapshot snapshot) := onSnapshot fetched v
  have ran := started.replay drained 0 0
  have drain : buf.drainAfter snapshot.updateId = ((buf.drainAfter snapshot.updateId).1,
    (buf.drainAfter snapshot.updateId).2) := rfl
  rw [applySpotSnapshot, MarketData.applySnapshot, drain]
  have same : spot.onSnapshot v snapshot.updateId = v.onSnapshot snapshot.updateId := rfl
  simp only [same]
  generalize MarketData.replay spot (book.applySnapshot snapshot) (v.onSnapshot snapshot.updateId)
    0 0 (buf.drainAfter snapshot.updateId).1 = outcome at ran ⊢
  obtain ⟨result, book', v'⟩ := outcome
  cases result with
  | ok counters => exact ran.of_sameMarket ⟨rfl, rfl, rfl⟩
  | error e => exact ran

end Backed

namespace SymbolState

/-- The buffer holds received events, and the book comes from them. -/
structure Sound (received : List BookDelta) (snapshots : List BookSnapshot) (state : SymbolState) :
    Prop where
  buffered : ∀ e ∈ state.recoveryBuf.events, e.delta ∈ received
  backed : Backed received snapshots state.validator.state state.book

private theorem sound_new (inst : InstrumentDefinition) : (new inst).Sound [] [] where
  buffered := by simp [new, RecoveryBuffer.new, RecoveryBuffer.withLimits]
  backed := .awaiting ⟨rfl, rfl, rfl⟩

namespace Sound

variable {work next : Work SymbolState Effect} {state : SymbolState}

/-- Only the components that a book is made of matter. -/
theorem of_eq (sound : state.Sound received snapshots) {other : SymbolState}
    (buffer : other.recoveryBuf = state.recoveryBuf) (validator : other.validator = state.validator)
    (book : other.book.SameMarket state.book) : other.Sound received snapshots where
  buffered := buffer ▸ sound.buffered
  backed := validator ▸ sound.backed.of_sameMarket book

theorem setFeedState (sound : work.state.Sound received snapshots) (new : ConnectorCore.FeedState)
    (ts : Int64) : (setFeedState new ts work).state.Sound received snapshots := by
  rw [SymbolState.setFeedState]
  split
  · exact sound
  · exact sound.of_eq rfl rfl ⟨rfl, rfl, rfl⟩

theorem push (sound : state.Sound received snapshots) {bd : BookDelta} (member : bd ∈ received)
    (recvTs : Int64) (encodedLen : ℕ) :
    ∀ e ∈ (state.recoveryBuf.push bd recvTs encodedLen).2.events, e.delta ∈ received := by
  rw [RecoveryBuffer.push]
  split
  · exact sound.buffered
  split
  · exact sound.buffered
  split
  · exact sound.buffered
  · intro e inside
    rcases List.mem_append.mp inside with earlier | last
    · exact sound.buffered e earlier
    · rw [List.mem_singleton.mp last]
      exact member

theorem withRecovery (sound : state.Sound received snapshots) {snapshot : BookSnapshot}
    (fetched : snapshot ∈ snapshots) : (state.withRecovery snapshot).Sound received snapshots where
  buffered := by
    have recovers := applySnapshot_recovers spot_ordered snapshot state.book state.validator
      state.recoveryBuf
    have drained : (state.withRecovery snapshot).recoveryBuf.events = [] :=
      congrArg RecoveryBuffer.events recovers.drained
    simp [drained]
  backed := Backed.applySnapshot fetched sound.buffered state.book state.validator

/-- Every move keeps the book backed by what has been received and fetched. -/
theorem move {input : SymbolInput} (sound : work.state.Sound received snapshots)
    (delta : ∀ bd ∈ input.delta?, bd ∈ received)
    (snapshot : ∀ s ∈ input.recoverySnapshot?, s ∈ snapshots) (move : Move input work next) :
    next.state.Sound received snapshots := by
  cases move with
  | feed ts reason => exact sound.setFeedState _ ts
  | stale reason ts => exact sound.of_eq rfl rfl ⟨rfl, rfl, rfl⟩
  | recovered now stale fetched succeeded =>
    refine Sound.setFeedState ?_ .live now
    exact (sound.withRecovery (snapshot _ fetched)).of_eq rfl rfl ⟨rfl, rfl, rfl⟩
  | replayed stale fetched failed => exact sound.withRecovery (snapshot _ fetched)
  | push recvTs encodedLen received =>
    exact ⟨sound.push (delta _ received) recvTs encodedLen, sound.backed⟩
  | clear => exact ⟨by simp [RecoveryBuffer.clear], sound.backed⟩
  | seed received fresh =>
    have member := delta _ received
    refine ⟨sound.buffered, ?_⟩
    have backed := sound.backed
    cases state : work.state.validator.state with
    | awaitingSnapshot =>
      rw [state] at backed
      cases backed with
      | awaiting same => exact .bridging (.seeded member) same
    | bridging | active | stale =>
      simp [SequenceValidator.lastValidId, state, ValidationState.lastValidId] at fresh
  | apply received accepted =>
    have step := sound.backed.validate (delta _ received)
    rw [validation] at accepted
    rw [if_pos accepted] at step
    exact ⟨sound.buffered, step⟩
  | skip received refused =>
    have step := sound.backed.validate (delta _ received)
    rw [validation] at refused
    rw [if_neg refused] at step
    exact ⟨sound.buffered, step⟩
  | gap | fetch | compare | check | failure | compared =>
    exact sound.of_eq rfl rfl ⟨rfl, rfl, rfl⟩

end Sound

/-- The depth events of a run. -/
def receivedDeltas (inputs : List SymbolInput) : List BookDelta :=
  inputs.filterMap SymbolInput.delta?

/-- The snapshots fetched for recoveries in a run. -/
def fetchedSnapshots (inputs : List SymbolInput) : List BookSnapshot :=
  inputs.filterMap SymbolInput.recoverySnapshot?

theorem sound (inst : InstrumentDefinition) (inputs : List SymbolInput) :
    (machine.final (new inst) inputs).Sound (receivedDeltas inputs) (fetchedSnapshots inputs) := by
  induction inputs using List.reverseRecOn with
  | nil => exact sound_new inst
  | append_singleton earlier input ih =>
    rw [Machine.final_append, Machine.final_cons, Machine.final_nil]
    generalize machine.final (new inst) earlier = state at ih
    have deltas : receivedDeltas (earlier ++ [input]) =
        receivedDeltas earlier ++ input.delta?.toList := by
      cases received : input.delta? <;> simp [receivedDeltas, List.filterMap_append, received]
    have snapshots : fetchedSnapshots (earlier ++ [input]) =
        fetchedSnapshots earlier ++ input.recoverySnapshot?.toList := by
      cases fetched : input.recoverySnapshot? <;>
        simp [fetchedSnapshots, List.filterMap_append, fetched]
    rw [deltas, snapshots]
    have grown : state.Sound (receivedDeltas earlier ++ input.delta?.toList)
        (fetchedSnapshots earlier ++ input.recoverySnapshot?.toList) := by
      refine ⟨fun e inside => List.mem_append_left _ (ih.buffered e inside), ih.backed.mono ?_ ?_⟩
      · exact fun d inside => List.mem_append_left _ inside
      · exact fun s inside => List.mem_append_left _ inside
    have moves := moves_handle input ⟨state, []⟩
    have kept : ∀ work next : Work SymbolState Effect, Move input work next →
        work.state.Sound (receivedDeltas earlier ++ input.delta?.toList)
          (fetchedSnapshots earlier ++ input.recoverySnapshot?.toList) →
        next.state.Sound (receivedDeltas earlier ++ input.delta?.toList)
          (fetchedSnapshots earlier ++ input.recoverySnapshot?.toList) := by
      intro work next move sound
      refine sound.move (fun bd member => ?_) (fun s member => ?_) move
      · exact List.mem_append_right _ (Option.mem_toList.mpr member)
      · exact List.mem_append_right _ (Option.mem_toList.mpr member)
    exact Work.invariant_of_moves kept moves grown

/-- After every run the book of a symbol is an origin with a chain of received events applied to
it, which ends at the last id the validator vouches for; before the first event it is empty. -/
theorem book_backed (inst : InstrumentDefinition) (inputs : List SymbolInput) :
    let state := machine.final (new inst) inputs
    (state.validator.lastValidId = none ∧ state.book.SameMarket .new) ∨
      ∃ base origin run, Origin (receivedDeltas inputs) (fetchedSnapshots inputs) base origin ∧
        Chain origin run ∧ (∀ d ∈ run, d ∈ receivedDeltas inputs) ∧
        state.book.SameMarket (base.applyDeltas run) ∧
        state.validator.lastValidId = some (chainEnd origin run) := by
  have backed := (sound inst inputs).backed
  intro state
  change Backed _ _ state.validator.state state.book at backed
  rw [SequenceValidator.lastValidId]
  generalize state.validator.state = position at backed ⊢
  cases backed with
  | awaiting same => exact .inl ⟨rfl, same⟩
  | bridging begins same => exact .inr ⟨_, _, [], begins, trivial, by simp, same, rfl⟩
  | active begins chain nonempty members same =>
    exact .inr ⟨_, _, _, begins, chain, members, same, rfl⟩
  | stale begins chain members same => exact .inr ⟨_, _, _, begins, chain, members, same, rfl⟩

end SymbolState

end TradingConnectivity.Shard
