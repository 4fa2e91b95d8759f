import TradingConnectivity.Shard.Consumers

/-! # The sequence numbers of a shard

The messages of frames take the number under the counter and advance it; the messages that the shard
writes itself advance the counter and take the new number. So one number can stand for two different
messages, and numbers can be missing, but along the stream of a shard they never decrease
(`numbers_ordered`).
-/

namespace TradingConnectivity.Shard

open ConnectorCore Normalize

private theorem add_ofNat_succ (base : UInt64) (n : ℕ) :
    base + .ofNat n + 1 = base + UInt64.ofNat (n + 1) := by
  rw [UInt64.ofNat_add, UInt64.add_assoc]
  rfl

/-- The fragments so far are numbered in order, counted from a base. -/
structure Numbered (base : UInt64) (spare : ℕ) (work : Work Outbox (List UInt8))
    (counts : List ℕ) (last : ℕ) : Prop where
  numbers : work.effects.map seqOf = counts.map fun n => some (base + .ofNat n)
  ordered : counts.Pairwise (· ≤ ·)
  below : ∀ n ∈ counts, n ≤ last
  counter : work.state.seq = base + .ofNat last
  bound : last ≤ work.effects.length + spare

/-- The buffer begins with a header that has a number which may come next. -/
def Fronted (base : UInt64) (counts : List ℕ) (last : ℕ) (encodeBuf : List UInt8) : Prop :=
  ∃ n ≤ last, (∀ m ∈ counts, m ≤ n) ∧ ∃ header : MessageHeader,
    header.wire <+: encodeBuf ∧ header.sequenceNumber = base + .ofNat n

namespace Numbered

variable {base : UInt64} {spare : ℕ} {work : Work Outbox (List UInt8)} {counts : List ℕ} {last : ℕ}

/-- One more fragment. -/
theorem emit (numbered : Numbered base spare work counts last) {n : ℕ} {fragment : List UInt8}
    (header : seqOf fragment = some (base + .ofNat n)) (next : ∀ m ∈ counts, m ≤ n)
    (small : n ≤ last) : Numbered base spare (work.emit fragment) (counts ++ [n]) last where
  numbers := by
    rw [Work.emit_effects, List.map_append, List.map_append, numbered.numbers, List.map_singleton,
      List.map_singleton, header]
  ordered := by
    refine List.pairwise_append.mpr ⟨numbered.ordered, List.pairwise_singleton _ _, ?_⟩
    intro m member k single
    rw [List.mem_singleton.mp single]
    exact next m member
  below := by
    intro m member
    rcases List.mem_append.mp member with earlier | new
    · exact numbered.below m earlier
    · rwa [List.mem_singleton.mp new]
  counter := numbered.counter
  bound := by
    have := numbered.bound
    rw [Work.emit_effects, List.length_append, List.length_singleton]
    omega

/-- The counter advances and the buffer changes. -/
theorem advance (numbered : Numbered base spare work counts last) (encodeBuf : List UInt8) :
    Numbered base (spare + 1) (work.update fun _ => ⟨work.state.seq + 1, encodeBuf⟩) counts
      (last + 1) where
  numbers := numbered.numbers
  ordered := numbered.ordered
  below n member := (numbered.below n member).trans (Nat.le_succ last)
  counter := by
    rw [Work.update_state, numbered.counter, add_ofNat_succ]
  bound := by
    have := numbered.bound
    rw [Work.update_effects]
    omega

theorem mono (numbered : Numbered base spare work counts last) {more : ℕ} (le : spare ≤ more) :
    Numbered base more work counts last where
  numbers := numbered.numbers
  ordered := numbered.ordered
  below := numbered.below
  counter := numbered.counter
  bound := numbered.bound.trans (Nat.add_le_add_left le _)

theorem buffer (numbered : Numbered base spare work counts last) (encodeBuf : List UInt8) :
    Numbered base spare (work.update ({ · with encodeBuf })) counts last where
  numbers := numbered.numbers
  ordered := numbered.ordered
  below := numbered.below
  counter := numbered.counter
  bound := numbered.bound

theorem nil (outbox : Outbox) : Numbered outbox.seq 0 ⟨outbox, []⟩ [] 0 where
  numbers := rfl
  ordered := List.Pairwise.nil
  below _ member := absurd member List.not_mem_nil
  counter := (UInt64.add_zero outbox.seq).symm
  bound := Nat.zero_le _

/-- What is numbered after the rest counts on from the rest. -/
theorem append (numbered : Numbered base spare work counts last) {next : Outbox}
    {effects : List (List UInt8)} {more last' : ℕ} {counts' : List ℕ}
    (later : Numbered (base + .ofNat last) more ⟨next, effects⟩ counts' last') :
    Numbered base (spare + more) ⟨next, work.effects ++ effects⟩
      (counts ++ counts'.map (last + ·)) (last + last') where
  numbers := by
    have shifted : ∀ n, base + .ofNat last + .ofNat n = base + UInt64.ofNat (last + n) := by
      intro n
      rw [UInt64.ofNat_add, UInt64.add_assoc]
    have numbers := later.numbers
    simp only [shifted] at numbers
    rw [List.map_append, List.map_append, List.map_map, numbered.numbers, numbers]
    rfl
  ordered := by
    refine List.pairwise_append.mpr ⟨numbered.ordered, ?_, ?_⟩
    · exact List.pairwise_map.mpr (later.ordered.imp fun le => Nat.add_le_add_left le last)
    · intro n earlier m member
      obtain ⟨k, -, rfl⟩ := List.mem_map.mp member
      exact (numbered.below n earlier).trans (Nat.le_add_right last k)
  below := by
    intro n member
    rcases List.mem_append.mp member with earlier | new
    · exact (numbered.below n earlier).trans (Nat.le_add_right last last')
    · obtain ⟨k, after, rfl⟩ := List.mem_map.mp new
      exact Nat.add_le_add_left (later.below k after) last
  counter := by
    have counter := later.counter
    rw [counter, UInt64.ofNat_add, UInt64.add_assoc]
  bound := by
    have first := numbered.bound
    have second := later.bound
    rw [List.length_append]
    simp only at second
    omega

end Numbered

namespace Outbox

variable {base : UInt64} {spare : ℕ} {work : Work Outbox (List UInt8)} {counts : List ℕ} {last : ℕ}
  {inst : InstrumentDefinition}

/-- Announcements are numbered in order, and the last one stays in the buffer. -/
theorem numbered_performAll (ctx : NormalizeCtx) (room : 8192 ≤ work.state.encodeBuf.length)
    (short : inst.symbol.utf8ByteSize ≤ 8000) (numbered : Numbered base spare work counts last)
    (effects : List Effect) :
    ∃ counts' last', Numbered base spare (performAll ctx inst effects work) counts' last' ∧
      (Fronted base counts last work.state.encodeBuf →
        Fronted base counts' last' (performAll ctx inst effects work).state.encodeBuf) := by
  induction effects generalizing work counts last with
  | nil => exact ⟨counts, last, numbered, fun fronted => fronted⟩
  | cons effect rest ih =>
    cases effect with
    | fetchSnapshot now | fetchComparison now => exact ih room numbered
    | announce control ts =>
      obtain ⟨bytes, small, transmits, performed⟩ :=
        @perform_announce inst work ctx room short control ts
      have number : seqOf bytes = some (base + .ofNat (last + 1)) := by
        rw [seqOf_of_header transmits.front, ← add_ofNat_succ, ← numbered.counter]
        rfl
      have le : ∀ m ∈ counts, m ≤ last + 1 := fun m member =>
        (numbered.below m member).trans (Nat.le_succ last)
      have emitted := (numbered.advance (bytes ++ work.state.encodeBuf.drop bytes.length)).emit
        number le le_rfl
      have step : Numbered base spare (perform ctx inst (.announce control ts) work)
          (counts ++ [last + 1]) (last + 1) := by
        rw [performed]
        refine { emitted with bound := ?_ }
        have := numbered.bound
        rw [List.length_append, List.length_singleton]
        omega
      have front : Fronted base (counts ++ [last + 1]) (last + 1)
          (perform ctx inst (.announce control ts) work).state.encodeBuf := by
        refine ⟨last + 1, le_rfl, step.below,
          ctrlHdr control.messageType ctx inst (work.state.seq + 1) ts, ?_, ?_⟩
        · rw [performed]
          exact transmits.front.trans (List.prefix_append _ _)
        · rw [← add_ofNat_succ, ← numbered.counter]
          rfl
      have still :
          8192 ≤ (perform ctx inst (.announce control ts) work).state.encodeBuf.length := by
        rw [performed, List.length_append, List.length_drop]
        omega
      obtain ⟨counts', last', later, fronted⟩ := ih still step
      exact ⟨counts', last', later, fun _ => fronted front⟩

/-- A message that the shard writes itself, whether it fits or not. -/
theorem numbered_offerNext (numbered : Numbered base spare work counts last)
    {m : UInt64 → NormalizedMessage} (own : ∀ seq, (m seq).header.sequenceNumber = seq) :
    ∃ counts' last', Numbered base (spare + 1) (offerNext m work) counts' last' := by
  rw [offerNext, offer]
  simp only [Work.update_state]
  cases ran : (m (work.state.seq + 1)).encodeInto work.state.encodeBuf with | mk result encodeBuf =>
  have advanced := numbered.advance encodeBuf
  cases result with
  | error e => exact ⟨counts, last + 1, advanced⟩
  | ok len =>
    obtain ⟨-, enough, front⟩ := NormalizedMessage.enough_of_encodeInto ran
    have number : seqOf (encodeBuf.take len) = some (base + .ofNat (last + 1)) := by
      have cut : (m (work.state.seq + 1)).header.wire <+: encodeBuf.take len :=
        List.prefix_take_iff.mpr ⟨front, by rwa [MessageHeader.length_wire]⟩
      rw [seqOf_of_header cut, own, ← add_ofNat_succ, numbered.counter]
    exact ⟨_, _, advanced.emit number (fun n member => (numbered.below n member).trans
      (Nat.le_succ last)) le_rfl⟩

end Outbox

namespace SpotShard

variable {base : UInt64} {spare : ℕ} {work : Work SpotShard (List UInt8)} {counts : List ℕ}
  {last : ℕ}

private theorem numbered_handleSymbol (ready : work.state.Ready)
    (numbered : Numbered base spare (outboxWork work) counts last) (other : String)
    (input : SymbolInput) :
    ∃ counts' last',
      Numbered base spare (outboxWork (handleSymbol other input work)) counts' last' ∧
      (Fronted base counts last work.state.outbox.encodeBuf →
        Fronted base counts' last' (handleSymbol other input work).state.outbox.encodeBuf) := by
  rw [handleSymbol]
  cases found : work.state.engine.get? other with
  | none => exact ⟨counts, last, numbered, fun fronted => fronted⟩
  | some old =>
    exact Outbox.numbered_performAll work.state.ctx ready.room (ready.short found) numbered _

/-- The message of a frame has the number under the counter, which has advanced by now. -/
theorem numbered_onMessage (ready : work.state.Ready)
    (numbered : Numbered base spare (outboxWork work) counts last) {n : ℕ} (le : n ≤ last)
    (next : ∀ m ∈ counts, m ≤ n) {msg : NormalizedMessage}
    (own : msg.header.sequenceNumber = base + .ofNat n) (other : String) (recvTs now : Int64)
    (fetched : Option MarketData.BookSnapshot) :
    ∃ counts' last',
      Numbered base spare (outboxWork (onMessage other msg recvTs now fetched work)) counts'
        last' := by
  have size := msg.length_encodeInto work.state.outbox.encodeBuf
  rw [onMessage]
  cases ran : msg.encodeInto work.state.outbox.encodeBuf with | mk result encodeBuf =>
  rw [ran] at size
  have encoded := numbered.buffer encodeBuf
  cases result with
  | error e => exact ⟨counts, last, encoded⟩
  | ok encodedLen =>
    obtain ⟨-, enough, front⟩ := NormalizedMessage.enough_of_encodeInto ran
    have fronted : Fronted base counts last encodeBuf := ⟨n, le, next, _, front, own⟩
    have offered : ∀ {work' : Work SpotShard (List UInt8)} {counts' last'},
        Numbered base spare (outboxWork work') counts' last' →
        Fronted base counts' last' work'.state.outbox.encodeBuf →
        ∃ counts'' last'', Numbered base spare
          (outboxWork (work'.emit (work'.state.outbox.encodeBuf.take encodedLen))) counts''
          last'' := by
      rintro work' counts' last' numbered ⟨k, small, after, header, front, number⟩
      have cut : header.wire <+: work'.state.outbox.encodeBuf.take encodedLen :=
        List.prefix_take_iff.mpr ⟨front, by rwa [header.length_wire]⟩
      exact ⟨_, _, numbered.emit ((seqOf_of_header cut).trans (congrArg some number)) after small⟩
    simp only
    cases symbolInput msg encodedLen recvTs now fetched with
    | none => exact offered encoded fronted
    | some input =>
      have still : (work.update fun s =>
          { s with outbox := { s.outbox with encodeBuf } }).state.Ready :=
        ready_update ready (size ▸ ready.room) rfl
      obtain ⟨counts', last', handled, behind⟩ := numbered_handleSymbol still encoded other input
      exact offered handled (behind fronted)

private theorem numbered_onFrame (ready : work.state.Ready)
    (numbered : Numbered base spare (outboxWork work) counts last) (other : String)
    (event : Spot.SpotEvent) (recvTs now : Int64) (fetched : Option MarketData.BookSnapshot) :
    ∃ counts' last', Numbered base (spare + 1)
      (outboxWork (onFrame other event recvTs now fetched work)) counts' last' := by
  have unchanged := numbered.mono (Nat.le_succ spare)
  have advances {seq : UInt64}
      (counted : seq = work.state.outbox.seq ∨ seq = work.state.outbox.seq + 1) :
      ∃ last', last ≤ last' ∧ Numbered base (spare + 1)
        (outboxWork (work.update fun s => { s with outbox := { s.outbox with seq } })) counts
        last' := by
    rcases counted with rfl | rfl
    · exact ⟨last, le_rfl, unchanged⟩
    · exact ⟨last + 1, Nat.le_succ last, numbered.advance work.state.outbox.encodeBuf⟩
  have step := onFrame_step other event recvTs now fetched work
  generalize onFrame other event recvTs now fetched work = next at step ⊢
  cases step with
  | unheard => exact ⟨counts, last, unchanged⟩
  | silent seq running counted =>
    obtain ⟨last', -, advanced⟩ := advances counted
    exact ⟨counts, last', advanced⟩
  | message seq msg counted data number =>
    obtain ⟨last', le, advanced⟩ := advances counted
    have own : msg.header.sequenceNumber = base + .ofNat last := by
      rw [number, ← numbered.counter]
      rfl
    have still : (work.update fun s => { s with outbox := { s.outbox with seq } }).state.Ready :=
      ready_update ready ready.room rfl
    exact numbered_onMessage still advanced le numbered.below own other recvTs now fetched

private theorem numbered_foldl (ready : work.state.Ready)
    (numbered : Numbered base spare (outboxWork work) counts last) (symbols : List String)
    (input : String → SymbolInput) :
    ∃ counts' last', Numbered base spare (outboxWork
      (symbols.foldl (fun work other => handleSymbol other (input other) work) work)) counts'
        last' := by
  have step {work : Work SpotShard (List UInt8)} (ready : work.state.Ready) (other : String)
      (input : SymbolInput) :
      (∃ counts last, Numbered base spare (outboxWork work) counts last) →
      ∃ counts last, Numbered base spare (outboxWork (handleSymbol other input work)) counts
        last := by
    rintro ⟨counts, last, numbered⟩
    obtain ⟨counts', last', handled, -⟩ := numbered_handleSymbol ready numbered other input
    exact ⟨counts', last', handled⟩
  exact (foldl_handleSymbol step ready ⟨counts, last, numbered⟩ symbols input).2

private theorem numbered_beat (numbered : Numbered base spare (outboxWork work) counts last)
    (now : Int64) :
    ∃ counts' last', Numbered base (spare + 1) (outboxWork (beat now work)) counts' last' := by
  rw [beat]
  split
  · exact @Outbox.numbered_offerNext base spare (outboxWork work) counts last numbered
      (fun seq => .heartbeat ⟨shardHdr .heartbeat work.state.ctx seq now⟩) fun _ => rfl
  · exact ⟨counts, last, numbered.mono (Nat.le_succ spare)⟩

private theorem numbered_handle (ready : work.state.Ready)
    (numbered : Numbered base spare (outboxWork work) counts last) (input : ShardInput) :
    ∃ counts' last', Numbered base (spare + 1) (outboxWork (handle input work)) counts' last' := by
  have unchanged := numbered.mono (Nat.le_succ spare)
  unfold handle
  split
  · cases input with
    | frame other event recvTs now fetched =>
      exact numbered_onFrame ready numbered other event recvTs now fetched
    | tick now fetched =>
      obtain ⟨counts', last', retried⟩ := numbered_foldl ready numbered
        work.state.engine.symbols.keys fun other => .retry now (fetched other)
      exact numbered_beat retried now
    | validationTick now fetched =>
      obtain ⟨counts', last', compared⟩ := numbered_foldl ready numbered
        work.state.engine.symbols.keys fun other => .validate (now other) (fetched other)
      exact ⟨counts', last', compared.mono (Nat.le_succ spare)⟩
  · exact ⟨counts, last, unchanged⟩

/-- The fragments of a run are numbered in order, counted from where the counter stood. -/
theorem numbered_run {shard : SpotShard} (ready : shard.Ready) (inputs : List ShardInput) :
    ∃ counts last, Numbered shard.outbox.seq inputs.length
      ⟨(machine.final shard inputs).outbox, machine.effects shard inputs⟩ counts last := by
  induction inputs generalizing shard with
  | nil => exact ⟨[], 0, .nil shard.outbox⟩
  | cons input rest ih =>
    have begin : (⟨shard, []⟩ : Work SpotShard (List UInt8)).state.Ready := ready
    obtain ⟨counts, last, handled⟩ := numbered_handle begin (.nil shard.outbox) input
    obtain ⟨counts', last', later⟩ := ih (ready_handle begin input)
    have counter : (handle input ⟨shard, []⟩).state.outbox.seq = shard.outbox.seq + .ofNat last :=
      handled.counter
    rw [counter] at later
    have joined := handled.append later
    rw [Nat.add_comm] at joined
    exact ⟨_, _, joined⟩

/-- Along a run the numbers in the headers of the fragments never decrease, apart from wrapping
around: they are counted from where the counter stood, and the counter advances at most once for a
fragment and once more for an input. -/
theorem numbers_ordered {shard : SpotShard} (ready : shard.Ready) (inputs : List ShardInput) :
    ∃ counts : List ℕ,
      (machine.effects shard inputs).map seqOf =
        (counts.map fun n => some (shard.outbox.seq + .ofNat n)) ∧
      counts.Pairwise (· ≤ ·) ∧
      ∀ n ∈ counts, n ≤ (machine.effects shard inputs).length + inputs.length := by
  obtain ⟨counts, last, numbered⟩ := numbered_run ready inputs
  exact ⟨counts, numbered.numbers, numbered.ordered, fun n member =>
    (numbered.below n member).trans numbered.bound⟩

theorem numbers_ordered_two :
    ∃ counts : List ℕ,
      (machine.effects (start (.ofInsts 0 twoInsts)) twoStreams).map seqOf =
        (counts.map fun n => some ((start (.ofInsts 0 twoInsts)).outbox.seq + .ofNat n)) ∧
      counts.Pairwise (· ≤ ·) ∧
      ∀ n ∈ counts,
        n ≤ (machine.effects (start (.ofInsts 0 twoInsts)) twoStreams).length + twoStreams.length :=
  numbers_ordered (ready_start (by decide)) twoStreams

end SpotShard

end TradingConnectivity.Shard
