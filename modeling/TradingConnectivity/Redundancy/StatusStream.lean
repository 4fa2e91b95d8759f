import TradingConnectivity.Machine.History
import TradingConnectivity.Redundancy.ChecksumPublisher
import TradingConnectivity.Redundancy.Failover

/-! # From the books to the verdicts

The instances publish checksums of their books into the status stream, and the arbiter ingests what
is delivered from it: fragments may be lost, delivered twice or out of order. The stream carries
exactly the messages of the accepted publications (`StatusStream.sent_decodes`), and whatever the
arbiter calls diverged are two books that differ (`StatusStream.verdicts_supported`).
-/

namespace TradingConnectivity.Redundancy

open ConnectorCore (BookChecksum InstanceRole MessageHeader)
open MarketData (OrderBook)
open Publisher (OfferResult)

namespace ChecksumArbiter

/-- Forget a symbol. -/
def resetSymbol (arbiter : ChecksumArbiter) (symbol : String) : ChecksumArbiter :=
  { arbiter with symbols := arbiter.symbols.erase symbol }

/-- Forget all symbols. -/
def reset (arbiter : ChecksumArbiter) : ChecksumArbiter := { arbiter with symbols := ∅ }

end ChecksumArbiter

/-- The publishers of all instances, the fragments their publications accepted, and the arbiter. -/
structure StatusStream where
  publishers : UInt32 → ChecksumPublisher
  sent : List (List UInt8)
  arbiter : ChecksumArbiter

inductive StatusInput
  /-- An instance publishes its book; the last argument is what its publication answers. -/
  | publish (symbol : String) (book : OrderBook) (header : MessageHeader) (offered : OfferResult)
  /-- The arbiter receives the fragment that was accepted at this position of the stream. -/
  | deliver (index : ℕ)
  | resetSymbol (symbol : String)
  | reset

inductive StatusAnswer
  | offered (result : OfferResult)
  | judged (verdict : ArbiterVerdict) (call : Option ChecksumArbiter.Divergence)
  | silent

namespace StatusStream

def start (arbiter : ChecksumArbiter) : StatusStream := ⟨fun _ => .new, [], arbiter⟩

def publish (stream : StatusStream) (symbol : String) (book : OrderBook) (header : MessageHeader)
    (offered : OfferResult) : StatusStream × StatusAnswer :=
  let (result, publisher) :=
    (stream.publishers header.instanceId).publish symbol book header offered
  ({ stream with
      publishers := Function.update stream.publishers header.instanceId publisher
      sent := stream.sent ++ result.2.toList },
    .offered result.1)

def deliver (stream : StatusStream) (index : ℕ) : StatusStream × StatusAnswer :=
  match stream.sent[index]? with
  | none => (stream, .silent)
  | some bytes =>
    match BookChecksum.decode bytes with
    | .error _ => (stream, .silent)
    | .ok msg =>
      let ((verdict, call), arbiter) := stream.arbiter.process msg
      ({ stream with arbiter }, .judged verdict call)

def machine : Machine StatusStream StatusInput StatusAnswer where
  step stream
    | .publish symbol book header offered => stream.publish symbol book header offered
    | .deliver index => stream.deliver index
    | .resetSymbol symbol =>
      ({ stream with arbiter := stream.arbiter.resetSymbol symbol }, .silent)
    | .reset => ({ stream with arbiter := stream.arbiter.reset }, .silent)

end StatusStream

/-- The message that an input puts into the stream. -/
def StatusInput.carried? : StatusInput → Option BookChecksum
  | .publish symbol book header (.ok _) =>
    if symbol.utf8ByteSize ≤ maxSymbolBytes then some (checksumMessage symbol book header) else none
  | _ => none

namespace StatusStream

/-! ## What the stream carries -/

private theorem sent_next (stream : StatusStream) (input : StatusInput) :
    (machine.next stream input).sent.map BookChecksum.decode =
      stream.sent.map BookChecksum.decode ++ input.carried?.toList.map .ok := by
  cases input with
  | publish symbol book header offered =>
    let publisher := stream.publishers header.instanceId
    change (stream.sent ++
      (publisher.publish symbol book header offered).1.2.toList).map BookChecksum.decode = _
    rw [List.map_append]
    by_cases fits : symbol.utf8ByteSize ≤ maxSymbolBytes
    · obtain ⟨bytes, decodes, result⟩ := publisher.publish_fitting book header offered fits
      rw [result]
      cases offered with
      | ok position =>
        simp [StatusInput.carried?, OfferResult.isOk, fits, decodes]
      | _ => rfl
    · rw [publisher.publish_long _ _ _ (Nat.not_le.mp fits)]
      cases offered with
      | ok position => simp [StatusInput.carried?, fits]
      | _ => rfl
  | deliver index =>
    have kept : (stream.deliver index).1.sent = stream.sent := by
      rw [deliver]
      split
      · rfl
      · split <;> rfl
    exact (congrArg _ kept).trans (List.append_nil _).symm
  | resetSymbol symbol => exact (List.append_nil _).symm
  | reset => exact (List.append_nil _).symm

/-- The stream carries exactly the messages of the accepted publications, in their order. -/
theorem sent_decodes (arbiter : ChecksumArbiter) (inputs : List StatusInput) :
    (machine.final (start arbiter) inputs).sent.map BookChecksum.decode =
      (inputs.filterMap StatusInput.carried?).map .ok := by
  suffices general : ∀ stream, (machine.final stream inputs).sent.map BookChecksum.decode =
      stream.sent.map BookChecksum.decode ++ (inputs.filterMap StatusInput.carried?).map .ok from
    general (start arbiter)
  induction inputs with
  | nil =>
    intro stream
    exact (List.append_nil _).symm
  | cons input rest ih =>
    intro stream
    rw [Machine.final_cons, ih, sent_next, List.append_assoc, ← List.map_append]
    congr 2
    cases carried : input.carried? <;> simp [carried]

end StatusStream

/-- The verdict names two checksums of one id of a symbol, which both roles are said to report. -/
def ArbiterVerdict.Names (reports : InstanceRole → String → UInt64 → UInt64 → Prop) :
    ArbiterVerdict → Prop
  | .matched symbol updateId checksum =>
    reports .active symbol updateId checksum ∧ reports .passive symbol updateId checksum
  | .diverged symbol updateId active passive =>
    reports .active symbol updateId active ∧ reports .passive symbol updateId passive ∧
      active ≠ passive
  | .pending | .stale => True

theorem ArbiterVerdict.Names.mono {verdict : ArbiterVerdict}
    {first second : InstanceRole → String → UInt64 → UInt64 → Prop}
    (weaker : ∀ kind symbol updateId checksum, first kind symbol updateId checksum →
      second kind symbol updateId checksum) (names : verdict.Names first) :
    verdict.Names second := by
  cases verdict with
  | matched => exact names.imp (weaker _ _ _ _) (weaker _ _ _ _)
  | diverged => exact names.imp (weaker _ _ _ _) (.imp_left (weaker _ _ _ _))
  | pending => trivial
  | stale => trivial

/-! ## What the windows hold -/

namespace ChecksumArbiter

/-- The window of the symbol holds this checksum of the role for this id. -/
def Reports (arbiter : ChecksumArbiter) (kind : InstanceRole) (symbol : String)
    (updateId checksum : UInt64) : Prop :=
  ∃ e ∈ arbiter.entries symbol, e.updateId = updateId ∧ e.get kind = some checksum

variable {arbiter : ChecksumArbiter} {msg : BookChecksum} {kind : InstanceRole} {symbol : String}
  {updateId checksum : UInt64}

private theorem Reports.of_record {capacity : ℕ} {window : Window capacity} {e : Entry}
    (member : e ∈ (window.record (role msg) msg.updateId msg.checksum).entries)
    (holds : e.get kind = some checksum) :
    (∃ before ∈ window.entries, before.updateId = e.updateId ∧ before.get kind = some checksum) ∨
      kind = role msg ∧ e.updateId = msg.updateId ∧ checksum = msg.checksum := by
  rcases Window.of_mem_record member with inside | ⟨before, origin, about, rfl⟩
  · exact .inl ⟨e, inside, rfl, holds⟩
  · by_cases same : kind = role msg
    · subst same
      rw [Entry.get_set_self] at holds
      exact .inr ⟨rfl, by rwa [Entry.updateId_set], (Option.some.inj holds).symm⟩
    · have others : kind = otherRole (role msg) := by
        cases kind <;> cases kinded : role msg <;> first | rfl | exact absurd kinded.symm same
      rw [others, Entry.get_set_other, ← others] at holds
      rcases origin with inside | rfl
      · exact .inl ⟨before, inside, (before.updateId_set _ _).symm, holds⟩
      · rw [Entry.get_new] at holds
        cases holds

/-- A message only adds its own report. -/
theorem Reports.of_ingest (reports : (arbiter.ingest msg).2.Reports kind symbol updateId checksum) :
    arbiter.Reports kind symbol updateId checksum ∨
      kind = role msg ∧ symbol = msg.symbol ∧ updateId = msg.updateId ∧
        checksum = msg.checksum := by
  obtain ⟨e, member, rfl, holds⟩ := reports
  by_cases below : arbiter.Below msg
  · rw [entries_ingest_below below] at member
    exact .inl ⟨e, member, rfl, holds⟩
  by_cases own : symbol = msg.symbol
  · subst own
    rw [entries_ingest_inside below] at member
    rcases Reports.of_record member holds with before | ⟨kinds, ids, sums⟩
    · exact .inl before
    · exact .inr ⟨kinds, rfl, ids, sums⟩
  · rw [entries_ingest_of_ne _ own] at member
    exact .inl ⟨e, member, rfl, holds⟩

/-- Forgetting a symbol adds no report. -/
private theorem Reports.of_resetSymbol {gone : String}
    (reports : (arbiter.resetSymbol gone).Reports kind symbol updateId checksum) :
    arbiter.Reports kind symbol updateId checksum := by
  obtain ⟨e, member, same, holds⟩ := reports
  rw [entries, queue, resetSymbol, Std.ExtTreeMap.getD_erase] at member
  split at member
  · exact absurd member List.not_mem_nil
  · exact ⟨e, member, same, holds⟩

/-- A window that was reset reports nothing. -/
private theorem not_reports_reset : ¬arbiter.reset.Reports kind symbol updateId checksum := by
  rintro ⟨e, member, -⟩
  rw [entries, queue, reset, Std.ExtTreeMap.getD_empty] at member
  exact absurd member List.not_mem_nil

/-- The verdict on an entry names the checksums that the entry holds. -/
private theorem judge_names {P : InstanceRole → String → UInt64 → UInt64 → Prop} {e : Entry}
    (holds : ∀ kind checksum, e.get kind = some checksum → P kind symbol e.updateId checksum) :
    (judge symbol e).Names P := by
  rw [judge]
  split
  · next active passive holdsActive holdsPassive =>
    have one := holds .active active holdsActive
    have two := holds .passive passive holdsPassive
    split
    · next agreed => exact ⟨one, agreed ▸ two⟩
    · next differs => exact ⟨one, two, differs⟩
  · trivial

/-- A verdict names what the windows hold afterwards. -/
theorem verdict_names (arbiter : ChecksumArbiter) (msg : BookChecksum) :
    (arbiter.ingest msg).1.Names (arbiter.ingest msg).2.Reports := by
  by_cases below : arbiter.Below msg
  · rw [ingest_below below]
    trivial
  · have found := Window.find?_record arbiter.window_pos (arbiter.queue msg.symbol) (role msg)
      msg.updateId msg.checksum
    generalize recorded : (arbiter.queue msg.symbol).record (role msg) msg.updateId msg.checksum =
      window at found
    generalize (((arbiter.queue msg.symbol).find? msg.updateId).getD _).set _ _ = e at found
    have ingested :
        arbiter.ingest msg = (judge msg.symbol e, arbiter.setQueue msg.symbol window) := by
      have inside : ¬(arbiter.queue msg.symbol).Precedes msg.updateId := below
      simp only [ingest, if_neg inside, recorded, found]
    have member := (window.find?_eq_some_iff.mp found).1
    rw [← entries_setQueue_self arbiter] at member
    rw [ingested]
    exact judge_names fun kind checksum holds => ⟨e, member, rfl, holds⟩

end ChecksumArbiter

/-! ## Verdicts are about books -/

namespace StatusStream

/-- An instance of this role published the book, and its publication accepted the fragment. -/
def Published (inputs : List StatusInput) (kind : InstanceRole) (symbol : String)
    (book : OrderBook) : Prop :=
  ∃ header position, .publish symbol book header (.ok position) ∈ inputs ∧
    .fromInstanceId header.instanceId = kind

/-- Some book with this id and this checksum was published. -/
def Attested (inputs : List StatusInput) (kind : InstanceRole) (symbol : String)
    (updateId checksum : UInt64) : Prop :=
  ∃ book, Published inputs kind symbol book ∧ book.lastUpdateId = updateId ∧
    book.checksum = checksum

theorem Attested.append {inputs : List StatusInput} {kind : InstanceRole} {symbol : String}
    {updateId checksum : UInt64} (attested : Attested inputs kind symbol updateId checksum)
    (input : StatusInput) : Attested (inputs ++ [input]) kind symbol updateId checksum := by
  obtain ⟨book, ⟨header, position, member, own⟩, about⟩ := attested
  exact ⟨book, ⟨header, position, List.mem_append_left _ member, own⟩, about⟩

/-- A message that the stream carries attests its checksum. -/
private theorem attested_of_carried {inputs : List StatusInput} {input : StatusInput}
    {msg : BookChecksum}
    (member : input ∈ inputs) (carried : input.carried? = some msg) :
    Attested inputs (ChecksumArbiter.role msg) msg.symbol msg.updateId msg.checksum := by
  match input, carried with
  | .publish symbol book header (.ok position), carried =>
    rw [StatusInput.carried?] at carried
    split at carried
    · obtain rfl := Option.some.inj carried
      refine ⟨book, ⟨header, position, member, ?_⟩, ?_, ?_⟩ <;>
        simp only [ChecksumArbiter.role, checksumMessage]
    · cases carried

/-- The stream carries what was published, and the windows hold only what was published. -/
structure Honest (inputs : List StatusInput) (stream : StatusStream) : Prop where
  carries : ∀ bytes ∈ stream.sent, ∀ msg, BookChecksum.decode bytes = .ok msg →
    ∃ input ∈ inputs, input.carried? = some msg
  holds : ∀ kind symbol updateId checksum,
    stream.arbiter.Reports kind symbol updateId checksum →
      Attested inputs kind symbol updateId checksum

theorem Honest.start {window : ℕ} (positive : 0 < window) :
    Honest [] (start (.withWindow window positive)) := by
  constructor
  · intro bytes member
    exact absurd member List.not_mem_nil
  · rintro kind symbol updateId checksum ⟨e, member, -⟩
    rw [ChecksumArbiter.entries, ChecksumArbiter.queue, StatusStream.start,
      ChecksumArbiter.withWindow, Std.ExtTreeMap.getD_empty] at member
    exact absurd member List.not_mem_nil

variable {inputs : List StatusInput} {stream : StatusStream}

/-- Fragments that were added are those of the input's own message. -/
private theorem mem_sent_next {input : StatusInput} {bytes : List UInt8} {msg : BookChecksum}
    (member : bytes ∈ (machine.next stream input).sent)
    (decodes : BookChecksum.decode bytes = .ok msg) :
    input.carried? = some msg ∨ ∃ earlier ∈ stream.sent, BookChecksum.decode earlier = .ok msg := by
  have inside := List.mem_map_of_mem (f := BookChecksum.decode) member
  rw [sent_next, decodes, List.mem_append] at inside
  rcases inside with before | own
  · obtain ⟨earlier, sent, same⟩ := List.mem_map.mp before
    exact .inr ⟨earlier, sent, same⟩
  · obtain ⟨other, carried, same⟩ := List.mem_map.mp own
    obtain rfl := Except.ok.inj same
    exact .inl (Option.mem_toList.mp carried)

/-- A delivered message is ingested. -/
private theorem deliver_of_decodes {index : ℕ} {bytes : List UInt8} {msg : BookChecksum}
    (found : stream.sent[index]? = some bytes) (decodes : BookChecksum.decode bytes = .ok msg) :
    (stream.deliver index).1.arbiter = (stream.arbiter.ingest msg).2 ∧
      ∃ call, (stream.deliver index).2 = .judged (stream.arbiter.ingest msg).1 call := by
  simp only [deliver, found, decodes]
  exact ⟨ChecksumArbiter.machine_next stream.arbiter msg, (stream.arbiter.process msg).1.2,
    congrArg (StatusAnswer.judged · _) (ChecksumArbiter.machine_verdict stream.arbiter msg)⟩

/-- Every delivery hands a message over, or does nothing. -/
private theorem deliver_cases (stream : StatusStream) (index : ℕ) :
    stream.deliver index = (stream, .silent) ∨
      ∃ bytes msg, stream.sent[index]? = some bytes ∧ BookChecksum.decode bytes = .ok msg := by
  cases found : stream.sent[index]? with
  | none => exact .inl (by simp only [deliver, found])
  | some bytes =>
    cases decodes : BookChecksum.decode bytes with
    | error => exact .inl (by simp only [deliver, found, decodes])
    | ok msg => exact .inr ⟨bytes, msg, rfl, decodes⟩

/-- What the arbiter ingests from the stream was published. -/
private theorem Honest.of_deliver (honest : Honest inputs stream) {index : ℕ} {bytes : List UInt8}
    {msg : BookChecksum} (found : stream.sent[index]? = some bytes)
    (decodes : BookChecksum.decode bytes = .ok msg) {kind : InstanceRole} {symbol : String}
    {updateId checksum : UInt64}
    (reports : (stream.arbiter.ingest msg).2.Reports kind symbol updateId checksum) :
    Attested inputs kind symbol updateId checksum := by
  rcases reports.of_ingest with before | ⟨rfl, rfl, rfl, rfl⟩
  · exact honest.holds _ _ _ _ before
  · obtain ⟨input, member, carried⟩ :=
      honest.carries bytes (List.mem_of_getElem? found) msg decodes
    exact attested_of_carried member carried

theorem Honest.next (honest : Honest inputs stream) (input : StatusInput) :
    Honest (inputs ++ [input]) (machine.next stream input) := by
  constructor
  · intro bytes member msg decodes
    rcases mem_sent_next member decodes with own | ⟨earlier, sent, same⟩
    · exact ⟨input, List.mem_append_right _ List.mem_cons_self, own⟩
    · obtain ⟨publication, inside, carried⟩ := honest.carries earlier sent msg same
      exact ⟨publication, List.mem_append_left _ inside, carried⟩
  · intro kind symbol updateId checksum reports
    apply Attested.append
    cases input with
    | publish => exact honest.holds _ _ _ _ reports
    | deliver index =>
      change (stream.deliver index).1.arbiter.Reports _ _ _ _ at reports
      rcases stream.deliver_cases index with nothing | ⟨bytes, msg, found, decodes⟩
      · rw [nothing] at reports
        exact honest.holds _ _ _ _ reports
      · rw [(deliver_of_decodes found decodes).1] at reports
        exact honest.of_deliver found decodes reports
    | resetSymbol gone => exact honest.holds _ _ _ _ reports.of_resetSymbol
    | reset => exact absurd reports ChecksumArbiter.not_reports_reset

/-- A verdict on two checksums is about two books of one id that both roles published; the books of
a divergence differ. -/
def Compared (inputs : List StatusInput) : ArbiterVerdict → Prop
  | .matched symbol updateId checksum => ∃ active passive,
    Published inputs .active symbol active ∧ Published inputs .passive symbol passive ∧
      active.lastUpdateId = updateId ∧ passive.lastUpdateId = updateId ∧
      active.checksum = checksum ∧ passive.checksum = checksum
  | .diverged symbol updateId first second => ∃ active passive,
    Published inputs .active symbol active ∧ Published inputs .passive symbol passive ∧
      active.lastUpdateId = updateId ∧ passive.lastUpdateId = updateId ∧
      active.checksum = first ∧ passive.checksum = second ∧ ¬active.SameMarket passive
  | .pending | .stale => True

private theorem compared_of_names {verdict : ArbiterVerdict}
    (names : verdict.Names (Attested inputs)) :
    Compared inputs verdict := by
  cases verdict with
  | matched symbol updateId checksum =>
    obtain ⟨⟨active, one, id, sum⟩, passive, two, id', sum'⟩ := names
    exact ⟨active, passive, one, two, id, id', sum, sum'⟩
  | diverged symbol updateId first second =>
    obtain ⟨⟨active, one, id, sum⟩, ⟨passive, two, id', sum'⟩, differ⟩ := names
    refine ⟨active, passive, one, two, id, id', sum, sum', ?_⟩
    intro same
    exact differ (sum.symm.trans (same.checksum_eq.trans sum'))
  | pending => trivial
  | stale => trivial

/-- A verdict on a delivery names what was published. -/
theorem Honest.judged (honest : Honest inputs stream) {input : StatusInput}
    {verdict : ArbiterVerdict} {call : Option ChecksumArbiter.Divergence}
    (judged : machine.answer stream input = .judged verdict call) : Compared inputs verdict := by
  cases input with
  | deliver index =>
    change (stream.deliver index).2 = _ at judged
    rcases stream.deliver_cases index with nothing | ⟨bytes, msg, found, decodes⟩
    · rw [nothing] at judged
      cases judged
    · obtain ⟨call, answered⟩ := (deliver_of_decodes found decodes).2
      rw [answered] at judged
      obtain ⟨rfl, -⟩ := StatusAnswer.judged.inj judged
      apply compared_of_names
      exact (ChecksumArbiter.verdict_names stream.arbiter msg).mono fun _ _ _ _ reports =>
        honest.of_deliver found decodes reports
  | publish => cases judged
  | resetSymbol => cases judged
  | reset => cases judged

abbrev StatusEvent := Machine.Event StatusStream StatusInput StatusAnswer

/-- Every verdict of a run compares books that were published before it. -/
def VerdictsSupported (events : List StatusEvent) : Prop :=
  ∀ past event later, events = past ++ event :: later → ∀ verdict call,
    event.output = .judged verdict call → Compared (past.map Machine.Event.input) verdict

/-- Whatever the stream loses, repeats or reorders, a verdict compares two books that were published
under one id, and a divergence is never called on two books that show the same market. -/
theorem verdicts_supported {window : ℕ} (positive : 0 < window) (inputs : List StatusInput) :
    VerdictsSupported (machine.history (start (.withWindow window positive)) inputs) := by
  intro past event later split verdict call judged
  obtain ⟨earlier, input, rest, -, rfl, rfl, -⟩ := machine.history_split split
  have honest := machine.history_induction (start (.withWindow window positive))
    (P := fun past stream => Honest (past.map Machine.Event.input) stream) (Honest.start positive)
    (by
      intro past stream input honest
      rw [List.map_append, List.map_singleton]
      exact honest.next input) earlier
  exact honest.judged judged

/-- An instance publishes a book at id 10 whose best bid has this quantity. -/
def publication (instanceId : UInt32) (qty : Int64) : StatusInput :=
  .publish "BTCUSDT" (OrderBook.new.applySnapshot ⟨10, [⟨100, qty⟩], []⟩)
    ⟨ConnectorCore.schemaVersion, .bookChecksum, .binanceSpot, .spot, 1, 0, instanceId, 0,
      ConnectorCore.tsNone, ConnectorCore.tsNone, ConnectorCore.tsNone, ConnectorCore.tsNone⟩
    (.ok 0)

/-- Two books that differ, delivered in reverse order. -/
theorem verdicts_supported_differing : VerdictsSupported (machine.history
    (start (.withWindow 2 (by decide)))
    [publication 0 1, publication 1 2, .deliver 1, .deliver 0]) :=
  verdicts_supported (by decide) _

end StatusStream

end TradingConnectivity.Redundancy
