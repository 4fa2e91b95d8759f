import TradingConnectivity.RefData.Registry
import TradingConnectivity.ToMathlib.Overwrite
import Mathlib.Data.List.Induction
import Mathlib.Data.List.Pairwise

/-! # The events of the registry as a log

Every event is told from the fold of the events before it: an added symbol is not there yet, the old
definition of an update is the one that is there, and a trading status comes exactly with a change
of `isTrading`. The counter of the statuses is a machine word, so the numbers increase until it has
wrapped around.
-/

namespace TradingConnectivity.RefData

open ConnectorCore

namespace RefDataEvent

/-- How a consumer applies an event. -/
def apply (folded : Instruments) (event : RefDataEvent) : Instruments :=
  folded.insert event.definition.symbol event.definition

/-- The definition an update replaces. -/
def old? : RefDataEvent → Option InstrumentDefinition
  | added _ _ => none
  | updated old _ _ => some old

/-- An event continues a log with this fold. -/
structure Continues (event : RefDataEvent) (folded : Instruments) : Prop where
  replaces : event.old? = folded[event.definition.symbol]?
  announced : event.tradingStatus.isSome ↔ folded[event.definition.symbol]? = none ∨
    ∃ prev ∈ folded[event.definition.symbol]?, prev.isTrading ≠ event.definition.isTrading
  status : ∀ status ∈ event.tradingStatus,
    status.symbol = event.definition.symbol ∧ status.isTrading = event.definition.isTrading

/-- The sequence numbers of the statuses in a log. -/
def statusNumbers (events : List RefDataEvent) : List UInt64 :=
  (events.filterMap tradingStatus).map fun status => status.header.sequenceNumber

end RefDataEvent

@[simp] theorem RefDataEvent.statusNumbers_append (first second : List RefDataEvent) :
    statusNumbers (first ++ second) = statusNumbers first ++ statusNumbers second := by
  rw [statusNumbers, List.filterMap_append, List.map_append]
  rfl

namespace InstrumentRegistry

/-- Every definition is stored under its own symbol. -/
def Keyed (instruments : Instruments) : Prop :=
  ∀ (symbol : String) (definition : InstrumentDefinition),
    instruments[symbol]? = some definition → definition.symbol = symbol

theorem Keyed.insert {instruments : Instruments} (keyed : Keyed instruments)
    (definition : InstrumentDefinition) :
    Keyed (instruments.insert definition.symbol definition) := by
  intro symbol other found
  rcases of_getElem?_insert found with ⟨rfl, rfl⟩ | stored
  · rfl
  · exact keyed symbol other stored

/-! ## One definition -/

/-- What one `upsert` does: it stores the definition and tells so, unless it is stored already. -/
theorem upsert_cases (registry : InstrumentRegistry) (definition : InstrumentDefinition) :
    let prev := registry.instruments[definition.symbol]?
    (registry.upsert definition = (none, ⟨registry.instruments, registry.nextSeq + 1⟩) ∧
      ∃ stored ∈ prev, businessFieldsDiffer stored definition = false) ∨
    ∃ event, registry.upsert definition =
        (some event, ⟨event.apply registry.instruments, registry.nextSeq + 1⟩) ∧
      (∀ stored ∈ prev, businessFieldsDiffer stored definition = true) ∧
      event.definition = definition ∧ event.Continues registry.instruments ∧
      ∀ status ∈ event.tradingStatus, status.header.sequenceNumber = registry.nextSeq := by
  cases found : registry.instruments[definition.symbol]? with
  | none =>
    right
    refine ⟨.added definition (makeTradingStatus definition registry.nextSeq), ?_, ?_, rfl,
      ⟨found.symm, ?_, ?_⟩, ?_⟩
    · rw [upsert, found]
      rfl
    · exact fun stored member => absurd member (Option.not_mem_none stored)
    · exact ⟨fun _ => .inl found, fun _ => rfl⟩
    · rintro status ⟨⟩
      exact ⟨rfl, rfl⟩
    · rintro status ⟨⟩
      rfl
  | some stored =>
    cases differ : businessFieldsDiffer stored definition with
    | false =>
      left
      exact ⟨by simp only [upsert, found, differ, Bool.false_eq_true, if_false], stored, rfl,
        differ⟩
    | true =>
      right
      refine ⟨.updated stored definition (if stored.isTrading != definition.isTrading then
          some (makeTradingStatus definition registry.nextSeq) else none), ?_, ?_, rfl,
        ⟨found.symm, ?_, ?_⟩, ?_⟩
      · simp only [upsert, found, differ, if_true]
        rfl
      · rintro other ⟨⟩
        exact differ
      · simp only [RefDataEvent.tradingStatus, RefDataEvent.definition, found]
        simp
      · simp only [RefDataEvent.tradingStatus, Option.mem_ite_none_right]
        rintro status ⟨-, ⟨⟩⟩
        exact ⟨rfl, rfl⟩
      · simp only [RefDataEvent.tradingStatus, Option.mem_ite_none_right]
        rintro status ⟨-, ⟨⟩⟩
        rfl

private theorem upsert_nextSeq (registry : InstrumentRegistry) (definition : InstrumentDefinition) :
    (registry.upsert definition).2.nextSeq = registry.nextSeq + 1 := by
  rcases registry.upsert_cases definition with ⟨same, -⟩ | ⟨event, same, -⟩ <;> rw [same]

private theorem upsert_definition (registry : InstrumentRegistry)
    (definition : InstrumentDefinition) :
    ∀ event ∈ (registry.upsert definition).1, event.definition = definition := by
  rcases registry.upsert_cases definition with ⟨same, -⟩ | ⟨event, same, -, own, -⟩
  · rw [same]
    exact fun event member => absurd member (Option.not_mem_none event)
  · rw [same]
    intro other member
    obtain rfl := Option.some.inj member
    exact own

/-- Nothing is told exactly when the stored definition equals the new one up to the header. -/
theorem upsert_eq_none_iff {registry : InstrumentRegistry} (keyed : Keyed registry.instruments)
    (definition : InstrumentDefinition) :
    (registry.upsert definition).1 = none ↔ ∃ stored ∈ registry.instruments[definition.symbol]?,
      { stored with header := definition.header } = definition := by
  rcases registry.upsert_cases definition with
    ⟨same, stored, found, equal⟩ | ⟨event, same, differ, -⟩
  · rw [same]
    have symbol := keyed _ stored found
    exact ⟨fun _ => ⟨stored, found, (businessFieldsDiffer_eq_false_iff symbol).mp equal⟩,
      fun _ => rfl⟩
  · rw [same]
    refine ⟨nofun, ?_⟩
    rintro ⟨stored, found, equal⟩
    have equal := (businessFieldsDiffer_eq_false_iff (keyed _ stored found)).mpr equal
    rw [differ stored found] at equal
    cases equal

/-! ## Runs -/

/-- The registry as a machine that takes one definition after the other. -/
def machine : Machine InstrumentRegistry InstrumentDefinition (Option RefDataEvent) where
  step registry definition := ((registry.upsert definition).2, (registry.upsert definition).1)

/-- The registry as a machine that takes one batch after the other. -/
def batches : Machine InstrumentRegistry (List InstrumentDefinition) (List RefDataEvent) where
  step registry definitions :=
    ((registry.applyBatch definitions).2, (registry.applyBatch definitions).1)

/-- The events a run over batches emits, oldest first. -/
def emitted (registry : InstrumentRegistry) (inputs : List (List InstrumentDefinition)) :
    List RefDataEvent :=
  (batches.history registry inputs).flatMap Machine.Event.output

abbrev Upserts := List (Machine.Event InstrumentRegistry InstrumentDefinition (Option RefDataEvent))

/-- The events of definitions taken one by one. -/
def told (past : Upserts) : List RefDataEvent := past.filterMap Machine.Event.output

private theorem told_append (first second : Upserts) : told
    (first ++ second) = told first ++ told second :=
  List.filterMap_append

private theorem told_singleton (registry : InstrumentRegistry) (definition : InstrumentDefinition)
    (event : Option RefDataEvent) : told [⟨registry, definition, event⟩] = event.toList := by
  cases event <;> rfl

private theorem applyBatch_eq (registry : InstrumentRegistry)
    (definitions : List InstrumentDefinition) :
    registry.applyBatch definitions =
      (told (machine.history registry definitions), machine.final registry definitions) := by
  induction definitions generalizing registry with
  | nil => rfl
  | cons definition rest ih =>
    rw [applyBatch]
    simp only [ih]
    cases event : (registry.upsert definition).1 <;>
      simp [told, machine, Machine.answer, Machine.next, event]

/-- How a run is cut into batches does not matter. -/
theorem batches_eq (registry : InstrumentRegistry) (inputs : List (List InstrumentDefinition)) :
    batches.final registry inputs = machine.final registry inputs.flatten ∧
      emitted registry inputs = told (machine.history registry inputs.flatten) := by
  induction inputs generalizing registry with
  | nil => exact ⟨rfl, rfl⟩
  | cons definitions rest ih =>
    have next : batches.next registry definitions = machine.final registry definitions :=
      congrArg Prod.snd (applyBatch_eq registry definitions)
    have answer : batches.answer registry definitions =
        told (machine.history registry definitions) :=
      congrArg Prod.fst (applyBatch_eq registry definitions)
    obtain ⟨final, later⟩ := ih (machine.final registry definitions)
    rw [List.flatten_cons, Machine.final_append, Machine.history_append, Machine.final_cons,
      emitted, Machine.history_cons, List.flatMap_cons, next, answer, told_append]
    exact ⟨final, congrArg _ later⟩

/-- A log all of whose events continue the fold of those before them. -/
def Faithful (events : List RefDataEvent) : Prop :=
  ∀ past event later, events = past ++ event :: later →
    event.Continues (past.foldl RefDataEvent.apply ∅)

theorem Faithful.concat {events : List RefDataEvent} {event : RefDataEvent}
    (faithful : Faithful events) (continues : event.Continues (events.foldl RefDataEvent.apply ∅)) :
    Faithful (events ++ [event]) := by
  intro past other later split
  rcases Machine.concat_split split with ⟨rfl, rfl⟩ | ⟨front, rfl, same⟩
  · exact continues
  · exact faithful past other front same

/-- The registry after the events of a run. -/
structure Follows (events : List RefDataEvent) (registry : InstrumentRegistry) : Prop where
  folded : events.foldl RefDataEvent.apply ∅ = registry.instruments
  keyed : Keyed registry.instruments
  faithful : Faithful events

theorem Follows.upsert {events : List RefDataEvent} {registry : InstrumentRegistry}
    (follows : Follows events registry) (definition : InstrumentDefinition) :
    Follows (events ++ (registry.upsert definition).1.toList) (registry.upsert definition).2 := by
  rcases registry.upsert_cases definition with
    ⟨same, -⟩ | ⟨event, same, differ, own, continues, -⟩
  · rw [same, Option.toList_none, List.append_nil]
    exact ⟨follows.folded, follows.keyed, follows.faithful⟩
  · rw [same, Option.toList_some]
    refine ⟨?_, follows.keyed.insert _, follows.faithful.concat ?_⟩
    · rw [List.foldl_append, follows.folded]
      rfl
    · rw [follows.folded]
      exact continues

private theorem follows_run (definitions : List InstrumentDefinition) :
    Follows (told (machine.history new definitions)) (machine.final new definitions) := by
  apply machine.history_induction new (P := fun past registry => Follows (told past) registry)
  · refine ⟨rfl, ?_, ?_⟩
    · intro symbol definition found
      rw [new, Std.ExtTreeMap.getElem?_empty] at found
      cases found
    · intro past event later split
      exact absurd split (List.append_ne_nil_of_right_ne_nil _ (List.cons_ne_nil _ _)).symm
  · intro past registry definition follows
    rw [told_append, told_singleton]
    exact follows.upsert definition

/-- A status takes the number its definition met. -/
private theorem statusNumbers_upsert (registry : InstrumentRegistry)
    (definition : InstrumentDefinition) :
    RefDataEvent.statusNumbers (registry.upsert definition).1.toList = [] ∨
      RefDataEvent.statusNumbers (registry.upsert definition).1.toList = [registry.nextSeq] := by
  rcases registry.upsert_cases definition with ⟨same, -⟩ | ⟨event, same, -, -, -, number⟩
  · rw [same]
    exact .inl rfl
  · rw [same, Option.toList_some, RefDataEvent.statusNumbers]
    cases status : event.tradingStatus with
    | none => exact .inl (by simp [status])
    | some announced => exact .inr (by simp [status, number announced status])

/-- The numbers of a log increase and stay below a count of definitions. -/
structure Numbered (events : List RefDataEvent) (count : ℕ) : Prop where
  increasing : (RefDataEvent.statusNumbers events).Pairwise (· < ·)
  below : ∀ number ∈ RefDataEvent.statusNumbers events, number.toNat < count

theorem Numbered.upsert {events : List RefDataEvent} {registry : InstrumentRegistry} {count : ℕ}
    (numbered : Numbered events count) (counted : registry.nextSeq.toNat = count)
    (definition : InstrumentDefinition) :
    Numbered (events ++ (registry.upsert definition).1.toList) (count + 1) := by
  have earlier : ∀ number ∈ RefDataEvent.statusNumbers events, number < registry.nextSeq := by
    intro number member
    rw [UInt64.lt_iff_toNat_lt, counted]
    exact numbered.below number member
  rcases registry.statusNumbers_upsert definition with silent | announced
  · constructor
    · rw [RefDataEvent.statusNumbers_append, silent, List.append_nil]
      exact numbered.increasing
    · rw [RefDataEvent.statusNumbers_append, silent, List.append_nil]
      exact fun number member => Nat.lt_succ_of_lt (numbered.below number member)
  · constructor
    · rw [RefDataEvent.statusNumbers_append, announced, List.pairwise_append]
      refine ⟨numbered.increasing, List.pairwise_singleton _ _, ?_⟩
      intro number member last same
      rw [List.mem_singleton.mp same]
      exact earlier number member
    · intro number member
      rw [RefDataEvent.statusNumbers_append, announced, List.mem_append,
        List.mem_singleton] at member
      rcases member with member | rfl
      · exact Nat.lt_succ_of_lt (numbered.below number member)
      · omega

private theorem nextSeq_run (definitions : List InstrumentDefinition) :
    (machine.final new definitions).nextSeq = UInt64.ofNat definitions.length := by
  induction definitions using List.reverseRecOn with
  | nil => rfl
  | append_singleton earlier definition ih =>
    rw [Machine.final_append, Machine.final_cons, Machine.final_nil, List.length_append,
      List.length_singleton, UInt64.ofNat_add, ← ih]
    exact upsert_nextSeq _ definition

/-- Until the counter wraps around, the status numbers of a run increase. -/
theorem numbered_run {definitions : List InstrumentDefinition}
    (short : definitions.length ≤ 2 ^ 64) :
    Numbered (told (machine.history new definitions)) definitions.length := by
  induction definitions using List.reverseRecOn with
  | nil => exact ⟨List.Pairwise.nil, nofun⟩
  | append_singleton earlier definition ih =>
    rw [List.length_append, List.length_singleton] at short ⊢
    have fits : earlier.length < 2 ^ 64 := by omega
    have counted : (machine.final new earlier).nextSeq.toNat = earlier.length := by
      rw [nextSeq_run, UInt64.toNat_ofNat_of_lt' fits]
    rw [Machine.history_append, Machine.history_cons, Machine.history_nil, told_append,
      told_singleton]
    exact (ih (by omega)).upsert counted definition

/-! ## The log -/

/-- The events of any batches are a faithful log of the registry. Their status numbers increase as
long as the counter has not wrapped around. -/
theorem faithful_log (inputs : List (List InstrumentDefinition)) :
    let registry := batches.final new inputs
    let events := emitted new inputs
    events.foldl RefDataEvent.apply ∅ = registry.instruments ∧
    Faithful events ∧
    (∀ definition,
      ((registry.upsert definition).1 = none ↔
        ∃ stored ∈ registry.instruments[definition.symbol]?,
          { stored with header := definition.header } = definition) ∧
      ∀ event ∈ (registry.upsert definition).1, event.definition = definition) ∧
    (inputs.flatten.length ≤ 2 ^ 64 →
      (RefDataEvent.statusNumbers events).Pairwise (· < ·)) := by
  intro registry events
  obtain ⟨final, emission⟩ := batches_eq new inputs
  have follows := follows_run inputs.flatten
  rw [← final, ← emission] at follows
  refine ⟨follows.folded, follows.faithful, ?_, ?_⟩
  · exact fun definition =>
      ⟨upsert_eq_none_iff follows.keyed definition, upsert_definition registry definition⟩
  · intro short
    have numbered := numbered_run short
    rw [← emission] at numbered
    exact numbered.increasing

/-! ## Wrapping around -/

/-- Repeating a stored definition moves nothing but the counter. -/
theorem run_replicate {registry : InstrumentRegistry} {definition : InstrumentDefinition}
    (stored : registry.instruments[definition.symbol]? = some definition) (n : ℕ) :
    machine.final registry (List.replicate n definition) =
        ⟨registry.instruments, registry.nextSeq + UInt64.ofNat n⟩ ∧
      told (machine.history registry (List.replicate n definition)) = [] := by
  induction n generalizing registry with
  | zero => exact ⟨by simp, rfl⟩
  | succ n ih =>
    have same : businessFieldsDiffer definition definition = false :=
      (businessFieldsDiffer_eq_false_iff rfl).mpr rfl
    have step : registry.upsert definition =
        (none, ⟨registry.instruments, registry.nextSeq + 1⟩) := by
      simp only [upsert, stored, same, Bool.false_eq_true, if_false]
    have next : machine.next registry definition =
        ⟨registry.instruments, registry.nextSeq + 1⟩ := congrArg Prod.snd step
    have answer : machine.answer registry definition = none := congrArg Prod.fst step
    have storedNext : (InstrumentRegistry.mk registry.instruments
        (registry.nextSeq + 1)).instruments[definition.symbol]? = some definition := stored
    obtain ⟨final, silent⟩ := ih storedNext
    rw [List.replicate_succ, Machine.final_cons, Machine.history_cons, next, answer, final,
      UInt64.ofNat_add, UInt64.add_comm (UInt64.ofNat n), ← UInt64.add_assoc]
    exact ⟨rfl, silent⟩

def listed (isTrading : Bool) : InstrumentDefinition where
  header := ⟨schemaVersion, .instrumentDefinition, .binanceSpot, .spot, 1, 0, 0, 0, 0, 0, 0, 0⟩
  symbol := "BTCUSDT"
  baseAsset := "BTC"
  quoteAsset := "USDT"
  priceScale := 2
  qtyScale := 8
  tickSize := 1
  stepSize := 1
  minQty := 1
  minNotional := 1
  contractSize := 1
  isTrading := isTrading

/-- A symbol is listed, confirmed by `n` batches and halted. -/
def listedAndHalted (n : ℕ) : List (List InstrumentDefinition) :=
  [listed true] :: (List.replicate n [listed true] ++ [[listed false]])

private theorem statusNumbers_listedAndHalted (n : ℕ) :
    RefDataEvent.statusNumbers (emitted new (listedAndHalted n)) = [0, UInt64.ofNat (n + 1)] := by
  let first : InstrumentRegistry := ⟨(∅ : Instruments).insert "BTCUSDT" (listed true), 1⟩
  let last : InstrumentRegistry := ⟨first.instruments, 1 + UInt64.ofNat n⟩
  have stored : first.instruments["BTCUSDT"]? = some (listed true) :=
    Std.ExtTreeMap.getElem?_insert_self
  have listing : new.upsert (listed true) =
      (some (.added (listed true) (makeTradingStatus (listed true) 0)), first) := by
    have absent : new.instruments[(listed true).symbol]? = none := Std.ExtTreeMap.getElem?_empty
    rw [upsert, absent]
    rfl
  have halting : (last.upsert (listed false)).1 = some (.updated (listed true) (listed false)
      (some (makeTradingStatus (listed false) (1 + UInt64.ofNat n)))) := by
    have found : last.instruments[(listed false).symbol]? = some (listed true) := stored
    rw [upsert, found]
    rfl
  have next : machine.next new (listed true) = first := congrArg Prod.snd listing
  have answer : machine.answer new (listed true) = _ := congrArg Prod.fst listing
  have storedFirst : first.instruments[(listed true).symbol]? = some (listed true) := stored
  obtain ⟨final, silent⟩ := run_replicate storedFirst n
  have reached : machine.final first (List.replicate n (listed true)) = last := final
  have halted : machine.answer last (listed false) = _ := halting
  rw [(batches_eq new _).2, listedAndHalted]
  simp only [List.flatten_cons, List.flatten_append, List.flatten_replicate_singleton,
    List.flatten_nil, List.append_nil, Machine.history_append, Machine.history_cons,
    Machine.history_nil, Machine.final_cons, Machine.final_nil, next, answer, reached, told_append,
    told_singleton, silent, halted, UInt64.ofNat_add]
  rw [UInt64.add_comm]
  rfl

/-- A symbol that is halted after 2^64 batches with its definition repeats the sequence number of
its listing. -/
theorem status_numbers_repeat :
    ∃ inputs, ¬(RefDataEvent.statusNumbers (emitted new inputs)).Pairwise (· < ·) := by
  refine ⟨listedAndHalted (2 ^ 64 - 1), ?_⟩
  rw [statusNumbers_listedAndHalted]
  have wrapped : UInt64.ofNat (2 ^ 64 - 1 + 1) = 0 := rfl
  rw [wrapped]
  decide

end InstrumentRegistry

end TradingConnectivity.RefData
