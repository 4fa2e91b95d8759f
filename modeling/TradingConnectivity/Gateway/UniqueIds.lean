import TradingConnectivity.Gateway.IssuedIds
import TradingConnectivity.Gateway.LengthPrefixes

/-! # Order ids across restarts

Over every history of an instance the returned ids are distinct, provided that no record loses its
place in the journal: a record of more than 65535 bytes of payload is cut where its length wraps,
and what is left of it may be read as other records, which hide the requests that follow.
-/

namespace TradingConnectivity.Gateway

open Codec

/-! ## Runs of an instance -/

/-- The ids returned in a history, oldest first. -/
def returnedIds (events : List InstanceEvent) : List ClientOrderId :=
  events.filterMap Machine.Event.output

/-- No id is returned twice, or while it names an order. -/
def Unreused (events : List InstanceEvent) : Prop :=
  (returnedIds events).Nodup ∧ ∀ event ∈ events, ∀ gw id, event.before = some gw →
    event.output = some id → gw.orders[id]? = none

/-- The record of the call keeps its length in the journal, and is not torn by a failing append. -/
def KeepsFrame (event : InstanceEvent) : Prop :=
  ∀ gw op entry, event.before = some gw → event.input = .call op → gw.journaled op = some entry →
    (encodePayload entry).length ≤ 65535 ∧ ¬gw.journal.Tears entry

private theorem returnedIds_concat (past : List InstanceEvent) (event : InstanceEvent) :
    returnedIds (past ++ [event]) = returnedIds past ++ event.output.toList := by
  rw [returnedIds, List.filterMap_append]
  cases output : event.output <;> simp [returnedIds, output]

theorem Unreused.concat {past : List InstanceEvent} {event : InstanceEvent}
    (unreused : Unreused past) (new : ∀ id, event.output = some id → id ∉ returnedIds past)
    (untracked : ∀ gw id, event.before = some gw → event.output = some id →
      gw.orders[id]? = none) : Unreused (past ++ [event]) := by
  refine ⟨?_, fun other member => ?_⟩
  · rw [returnedIds_concat]
    cases output : event.output with
    | none => exact (List.append_nil _).symm ▸ unreused.1
    | some id =>
      have distinct := List.Nodup.concat (new id output) unreused.1
      rwa [List.concat_eq_append] at distinct
  · rcases List.mem_append.mp member with before | last
    · exact unreused.2 other before
    · rw [List.mem_singleton.mp last]
      exact untracked

/-- The ids that were asked for. -/
def requestCount (events : List InstanceEvent) : ℕ := events.countP (·.input.isEnqueue)

private theorem requestCount_concat (past : List InstanceEvent) (event : InstanceEvent) :
    requestCount (past ++ [event]) = requestCount past + event.input.isEnqueue.toNat := by
  rw [requestCount, List.countP_append, List.countP_singleton]
  cases event.input.isEnqueue <;> rfl

/-- The gateway that is up is sound for the ids returned so far, and its counter is not ahead of
their number. -/
def Ahead (past : List InstanceEvent) (state : Option OrderGateway) : Prop :=
  ∀ gw, state = some gw →
    (∃ durable entries, Sound (returnedIds past) gw durable entries) ∧
      gw.cloidGen.counter.toNat ≤ requestCount past

/-- The ids stay unique as long as their number stays in the generator's range. -/
def Unique (past : List InstanceEvent) (state : Option OrderGateway) : Prop :=
  (∀ event ∈ past, KeepsFrame event) → requestCount past < 2 ^ 64 - 1 →
    Unreused past ∧ Ahead past state

theorem Unique.step {past : List InstanceEvent} {state : Option OrderGateway}
    (unique : Unique past state) (input : InstanceInput) :
    Unique (past ++ [⟨state, input, gatewayInstance.answer state input⟩])
      (gatewayInstance.next state input) := by
  intro tame few
  have tameBefore : ∀ event ∈ past, KeepsFrame event := fun event member =>
    tame event (List.mem_append_left _ member)
  have tameNow := tame _ (List.mem_append_right _ List.mem_cons_self)
  rw [requestCount_concat] at few
  obtain ⟨unreused, ahead⟩ := unique tameBefore (by omega)
  rw [Ahead, returnedIds_concat, requestCount_concat]
  cases state with
  | none => exact ⟨unreused.concat nofun nofun, nofun⟩
  | some gw =>
    obtain ⟨⟨durable, entries, sound⟩, behind⟩ := ahead gw rfl
    cases input with
    | call op =>
      have short := fun entry written => (tameNow gw op entry rfl rfl written).1
      have whole := fun entry written => (tameNow gw op entry rfl rfl written).2
      obtain ⟨later, counted, new⟩ := sound.call op (by omega) short whole
      constructor
      · refine unreused.concat (fun id answered member => ?_) ?_
        · exact new id answered (sound.issued member)
        · rintro _ id ⟨⟩ answered
          cases found : gw.orders[id]? with
          | none => rfl
          | some order => exact absurd (sound.keys id order found) (new id answered)
      · rintro _ ⟨⟩
        exact ⟨later, counted.trans (Nat.add_le_add_right behind _)⟩
    | restart flushed script =>
      refine ⟨unreused.concat nofun nofun, fun after opened => ?_⟩
      rw [next_restart] at opened
      cases decodes : decodeAll (gw.journal.left flushed) with
      | error e =>
        rw [decodes] at opened
        cases opened
      | ok decoded =>
        rw [decodes] at opened
        obtain ⟨kept, later, below⟩ :=
          sound.restart script decodes (Option.some.inj opened).symm
        refine ⟨⟨kept, kept, (List.append_nil _).symm ▸ later⟩, ?_⟩
        exact below.trans (behind.trans (Nat.le_add_right _ _))

/-- No client order id is returned twice or while it names an order, however often the gateway is
restarted, unless a record loses its place in the journal. -/
theorem ids_never_reused (instanceId : UInt32) (script : List IoOutcome)
    {inputs : List InstanceInput} (few : inputs.countP InstanceInput.isEnqueue < 2 ^ 64 - 1)
    (tame : ∀ event ∈ gatewayInstance.history
      (some (.fresh instanceId ⟨.file [] [] script⟩)) inputs, KeepsFrame event) :
    Unreused (gatewayInstance.history (some (.fresh instanceId ⟨.file [] [] script⟩)) inputs) := by
  have initial : Unique [] (some (.fresh instanceId ⟨.file [] [] script⟩)) := by
    refine fun _ _ => ⟨⟨List.nodup_nil, fun _ member => absurd member List.not_mem_nil⟩, ?_⟩
    rintro _ ⟨⟩
    exact ⟨⟨[], [], .fresh instanceId script⟩, Nat.zero_le _⟩
  have unique := gatewayInstance.history_induction _ initial
    (fun past state input unique => unique.step input) inputs
  refine (unique tame ?_).1
  rw [← gatewayInstance.history_inputs (some (.fresh instanceId ⟨.file [] [] script⟩)) inputs,
    List.countP_map] at few
  exact few

/-- A request with a short symbol keeps its frame while no append is scripted to fail. -/
private theorem keepsFrame_enqueue {state : Option OrderGateway} {request : OrderRequest}
    (short : request.symbol.utf8ByteSize ≤ 255)
    (reliable : ∀ gw, state = some gw → ∃ contents, gw.journal = ⟨.file contents [] []⟩)
    (nowNs : Int64) (output : Option ClientOrderId) :
    KeepsFrame ⟨state, .call (.enqueue request nowNs), output⟩ := by
  rintro gw _ _ up ⟨⟩ ⟨⟩
  obtain ⟨contents, journal⟩ := reliable gw up
  have fits : (JournalEntry.orderRequested nowNs gw.cloidGen.generate.1 request).Representable :=
    .of_short (generate_utf8ByteSize gw.cloidGen) (by rintro _ _ _ ⟨⟩; exact short)
      (by rintro _ _ _ ⟨⟩)
  rw [journal]
  exact ⟨fits.payload, not_false⟩

private theorem keepsFrame_restart (state : Option OrderGateway) (flushed : ℕ)
    (script : List IoOutcome)
    (output : Option ClientOrderId) : KeepsFrame ⟨state, .restart flushed script, output⟩ := by
  rintro gw op entry _ ⟨⟩

/-- A gateway that was opened has an empty buffer and the script it was opened with. -/
private theorem restart_journal {gw after : OrderGateway} {flushed : ℕ} {script : List IoOutcome}
    (up : gatewayInstance.next (some gw) (.restart flushed script) = some after) :
    ∃ contents, after.journal = ⟨.file contents [] script⟩ := by
  rw [next_restart] at up
  split at up
  · cases up
  · obtain rfl := Option.some.inj up
    exact ⟨_, rfl⟩

/-- Two orders with a restart between them. -/
theorem ids_never_reused_restart :
    Unreused (gatewayInstance.history (some (.fresh 1 ⟨.file [] [] []⟩))
      [.call (.enqueue marketOrder 1), .restart 0 [], .call (.enqueue marketOrder 2)]) := by
  have short : marketOrder.symbol.utf8ByteSize ≤ 255 := by decide
  have opened : ∀ gw, some (OrderGateway.fresh 1 ⟨.file [] [] []⟩) = some gw →
      ∃ contents, gw.journal = ⟨.file contents [] []⟩ := by
    rintro _ ⟨⟩
    exact ⟨[], rfl⟩
  apply ids_never_reused 1 [] (by decide)
  simp only [Machine.history_cons, Machine.history_nil, List.forall_mem_cons]
  refine ⟨keepsFrame_enqueue short opened 1 _, keepsFrame_restart _ _ _ _,
    keepsFrame_enqueue short (fun gw up => restart_journal up) 2 _, fun _ member => ?_⟩
  exact absurd member List.not_mem_nil

/-! ## A rejection that hides a request -/

/-- The id of the second order of instance 1. -/
def secondId : ClientOrderId := ⟨"cc-0001-0000000000000001"⟩

private theorem generate_firstId : (ClientOrderIdGenerator.mk 1 0).generate.1 = firstId := by decide

private theorem generate_secondId :
    (ClientOrderIdGenerator.mk 1 1).generate.1 = secondId := by decide

/-- A rejection of no order whose text carries these bytes. -/
def carrier (bytes : List UInt8) : JournalEntry := .orderRejected 0 ⟨""⟩ (asciiString bytes)

/-- The bytes of its record before the carried ones. -/
def carrierHeader (n : ℕ) : List UInt8 :=
  Encoder.u8 5 ++ Encoder.i64 0 ++ Encoder.u16 (3 + n) ++ Encoder.strU8 "" ++ Encoder.u16 n

private theorem length_carrierHeader (n : ℕ) : (carrierHeader n).length = 14 := by
  simp only [carrierHeader, Encoder.u16, List.length_append, length_leBytes]
  rfl

private theorem encodeEntry_carrier {bytes : List UInt8}
    (ascii : ∀ byte ∈ bytes, byte.toNat < 128) :
    encodeEntry (carrier bytes) = carrierHeader bytes.length ++ bytes := by
  have payload : encodePayload (carrier bytes) =
      Encoder.strU8 "" ++ (Encoder.u16 bytes.length ++ bytes) := by
    simp only [carrier, encodePayload, Encoder.strU16, strBytes_asciiString ascii]
  have length : (encodePayload (carrier bytes)).length = 3 + bytes.length := by
    simp only [payload, Encoder.u16, List.length_append, length_leBytes, ← Nat.add_assoc]
    rfl
  rw [encodeEntry, length, payload, carrierHeader]
  simp only [List.append_assoc]
  rfl

private theorem representable_carrier {bytes : List UInt8}
    (ascii : ∀ byte ∈ bytes, byte.toNat < 128)
    (short : bytes.length ≤ 65532) : (carrier bytes).Representable := by
  have id : (carrier bytes).cloid.asStr.utf8ByteSize = 0 := rfl
  refine .of_short (by omega) (by rintro _ _ _ ⟨⟩) ?_
  rintro _ _ _ ⟨⟩
  have whole := length_encodeEntry (carrier bytes)
  rw [encodeEntry_carrier ascii, List.length_append, length_carrierHeader] at whole
  change (encodePayload (carrier bytes)).length ≤ 65535
  omega

private theorem u16_wraps (n : ℕ) : Encoder.u16 (n + 65536) = Encoder.u16 n :=
  leBytes_add_mul_pow 2 n 1

/-- A text of 65536 bytes is stored as an empty one with the bytes behind the record. -/
private theorem encodeEntry_rejected_wraps (timestampNs : Int64) (id : ClientOrderId)
    {reason : String}
    (length : (strBytes reason).length = 65536) :
    encodeEntry (.orderRejected timestampNs id reason) =
      encodeEntry (.orderRejected timestampNs id "") ++ strBytes reason := by
  have wrapped : Encoder.u16 65536 = Encoder.u16 0 := u16_wraps 0
  have empty : (strBytes "").length = 0 := rfl
  have payload : (encodePayload (.orderRejected timestampNs id reason)).length =
      (encodePayload (.orderRejected timestampNs id "")).length + (strBytes reason).length := by
    simp only [encodePayload, Encoder.strU16, Encoder.u16, List.length_append, length_leBytes,
      empty]
    omega
  rw [encodeEntry, payload, length, u16_wraps, encodeEntry]
  simp only [encodePayload, Encoder.strU16, length, wrapped, List.append_assoc]
  rfl

def padding (n : ℕ) : List UInt8 := List.replicate n 120

/-- The record of the second request. -/
def hiddenRecord : List UInt8 := encodeEntry (.orderRequested 3 secondId marketOrder)

/-- Two records of no order, and the beginning of a third that ends with the next record. -/
def confusingBytes : List UInt8 :=
  carrierHeader 32636 ++ padding 32636 ++ (carrierHeader 32636 ++ padding 32636) ++
    (carrierHeader 278 ++ padding 222)

/-- What a journal with this text decodes to in the place of the rejection and the request. -/
def confusedEntries : List JournalEntry :=
  [.orderRejected 2 firstId "", carrier (padding 32636), carrier (padding 32636),
    carrier (padding 222 ++ hiddenRecord)]

private theorem length_padding (n : ℕ) : (padding n).length = n := List.length_replicate

private theorem length_carried : (padding 222 ++ hiddenRecord).length = 278 := by
  rw [List.length_append, length_padding]
  decide

/-- A check of a concrete text. -/
private theorem ascii_of_all {bytes : List UInt8} (checked : bytes.all (·.toNat < 128) = true) :
    ∀ byte ∈ bytes, byte.toNat < 128 := fun byte member =>
  of_decide_eq_true (List.all_eq_true.mp checked byte member)

private theorem padding_ascii (n : ℕ) : ∀ byte ∈ padding n, byte.toNat < 128 := by
  intro byte member
  rw [List.eq_of_mem_replicate member]
  decide

private theorem carried_ascii : ∀ byte ∈ padding 222 ++ hiddenRecord, byte.toNat < 128 := by
  intro byte member
  rcases List.mem_append.mp member with inside | record
  · exact padding_ascii 222 byte inside
  · exact ascii_of_all (by decide) byte record

private theorem confusingBytes_ascii : ∀ byte ∈ confusingBytes, byte.toNat < 128 := by
  have long : ∀ byte ∈ carrierHeader 32636, byte.toNat < 128 := ascii_of_all (by decide)
  have short : ∀ byte ∈ carrierHeader 278, byte.toNat < 128 := ascii_of_all (by decide)
  simp only [confusingBytes, List.forall_mem_append]
  exact ⟨⟨⟨long, padding_ascii _⟩, long, padding_ascii _⟩, short, padding_ascii _⟩

private theorem length_confusingBytes : confusingBytes.length = 65536 := by
  simp only [confusingBytes, List.length_append, length_carrierHeader, length_padding]

private theorem confusedEntries_representable : ∀ entry ∈ confusedEntries, entry.Representable := by
  have rejected : (JournalEntry.orderRejected 2 firstId "").Representable :=
    .of_short (by decide) (by rintro _ _ _ ⟨⟩) (by rintro _ _ _ ⟨⟩; decide)
  have padded := representable_carrier (padding_ascii 32636) (by rw [length_padding]; omega)
  have last := representable_carrier carried_ascii (by rw [length_carried]; omega)
  simp only [confusedEntries, List.forall_mem_cons]
  exact ⟨rejected, padded, padded, last, nofun⟩

private theorem encodeEntry_confusing :
    encodeEntry (.orderRejected 2 firstId (asciiString confusingBytes)) ++ hiddenRecord =
      confusedEntries.flatMap encodeEntry := by
  have ascii := strBytes_asciiString confusingBytes_ascii
  have length : (strBytes (asciiString confusingBytes)).length = 65536 := by
    rw [ascii, length_confusingBytes]
  rw [encodeEntry_rejected_wraps 2 firstId length, ascii]
  simp only [confusedEntries, List.flatMap_cons, List.flatMap_nil, List.append_nil,
    encodeEntry_carrier (padding_ascii 32636), encodeEntry_carrier carried_ascii,
    length_padding, length_carried, confusingBytes, List.append_assoc]

/-- An order that is rejected with some text, and a second order. -/
def rejectedWith (reason : String) : List InstanceInput :=
  [.call (.enqueue marketOrder 1), .call (.onReject firstId reason 2),
    .call (.enqueue marketOrder 3)]

/-- The journal of that run. -/
def rejectedJournal (reason : String) : List UInt8 :=
  encodeEntry (.orderRequested 1 firstId marketOrder) ++
    (encodeEntry (.orderRejected 2 firstId reason) ++ hiddenRecord)

private theorem rejectedWith_ids (reason : String) :
    returnedIds (gatewayInstance.history (some (.fresh 1 ⟨.file [] [] []⟩))
      (rejectedWith reason)) = [firstId, secondId] := by
  rw [← generate_firstId, ← generate_secondId]
  rfl

private theorem rejectedWith_journal (reason : String) :
    ∃ gw, gatewayInstance.final (some (.fresh 1 ⟨.file [] [] []⟩)) (rejectedWith reason) =
        some gw ∧ gw.instanceId = 1 ∧ gw.journal.left 0 = rejectedJournal reason := by
  let placed := ((OrderGateway.fresh 1 ⟨.file [] [] []⟩).exec (.enqueue marketOrder 1)).2
  have live : placed.live? firstId =
      some (OrderGateway.pendingOrder firstId marketOrder 1) := by
    rw [← generate_firstId]
    exact OrderGateway.live?_eq_some.mpr ⟨Std.ExtTreeMap.getElem?_insert_self, rfl⟩
  let rejected := (placed.exec (.onReject firstId reason 2)).2
  have stored : ∃ orders, rejected = ⟨1, ⟨1, 1⟩, ⟨.file ([] ++ [] ++
      encodeEntry (.orderRequested 1 firstId marketOrder) ++ [] ++
        encodeEntry (.orderRejected 2 firstId reason)) [] []⟩, orders⟩ := by
    simp only [rejected, OrderGateway.exec, OrderGateway.onReject, OrderGateway.close_live live]
    rw [← generate_firstId]
    exact ⟨_, rfl⟩
  obtain ⟨orders, stored⟩ := stored
  have reached : gatewayInstance.final (some (.fresh 1 ⟨.file [] [] []⟩)) (rejectedWith reason) =
      some (rejected.exec (.enqueue marketOrder 3)).2 := rfl
  rw [stored] at reached
  refine ⟨_, reached, rfl, ?_⟩
  change _ ++ _ ++ [] ++ encodeEntry
    (.orderRequested 3 (ClientOrderIdGenerator.mk 1 1).generate.1 marketOrder) ++ [].take 0 = _
  rw [generate_secondId]
  simp only [rejectedJournal, hiddenRecord, List.nil_append, List.append_nil, List.take_nil,
    List.append_assoc]

private theorem decodeAll_confused :
    decodeAll (rejectedJournal (asciiString confusingBytes)) =
      .ok (.orderRequested 1 firstId marketOrder :: confusedEntries) := by
  have requested : (JournalEntry.orderRequested 1 firstId marketOrder).Representable :=
    .of_short (by decide) (by rintro _ _ _ ⟨⟩; decide) (by rintro _ _ _ ⟨⟩)
  rw [rejectedJournal, encodeEntry_confusing, ← List.flatMap_cons]
  exact decodeAll_encodeEntries (List.forall_mem_cons.mpr
    ⟨requested, confusedEntries_representable⟩)

/-- After the restart the second id is issued once more. -/
theorem confused_reissues (bytes : List UInt8) :
    gatewayInstance.answer (some ((OrderGateway.fresh 1 ⟨.file bytes [] []⟩).replayJournal
      (.orderRequested 1 firstId marketOrder :: confusedEntries)))
      (.call (.enqueue marketOrder 4)) = some secondId := by
  have parsed : firstId.parseCounter = some 0 := by decide
  have counter : ((.orderRequested 1 firstId marketOrder :: confusedEntries).foldl
      OrderGateway.replayEntry (∅, none)).2 = some 0 := by
    simp only [confusedEntries, carrier, List.foldl_cons, List.foldl_nil, OrderGateway.replayEntry,
      parsed]
    rfl
  have generator : ((OrderGateway.fresh 1 ⟨.file bytes [] []⟩).replayJournal
      (.orderRequested 1 firstId marketOrder :: confusedEntries)).cloidGen = ⟨1, 1⟩ :=
    congrArg (fun last : Option UInt64 =>
      last.elim (ClientOrderIdGenerator.new 1) (.withStartAfter 1)) counter
  rw [← generate_secondId, ← generator]
  rfl

/-- A rejection with a text of 65536 bytes hides the next request, whose id is issued again. -/
theorem id_reissued : ¬Unreused (gatewayInstance.history (some (.fresh 1 ⟨.file [] [] []⟩))
    [.call (.enqueue marketOrder 1), .call (.onReject firstId (asciiString confusingBytes) 2),
      .call (.enqueue marketOrder 3), .restart 0 [], .call (.enqueue marketOrder 4)]) := by
  rintro ⟨distinct, -⟩
  obtain ⟨gw, reached, own, found⟩ := rejectedWith_journal (asciiString confusingBytes)
  have opened : gatewayInstance.next (some gw) (.restart 0 []) =
      some ((OrderGateway.fresh 1
        ⟨.file (rejectedJournal (asciiString confusingBytes)) [] []⟩).replayJournal
          (.orderRequested 1 firstId marketOrder :: confusedEntries)) := by
    rw [next_restart, found, own, decodeAll_confused]
  have ids : returnedIds (gatewayInstance.history (some (.fresh 1 ⟨.file [] [] []⟩))
      (rejectedWith (asciiString confusingBytes) ++
        [.restart 0 [], .call (.enqueue marketOrder 4)])) = [firstId, secondId, secondId] := by
    rw [Machine.history_append, reached, returnedIds, List.filterMap_append, ← returnedIds,
      rejectedWith_ids, Machine.history_cons, opened, Machine.history_cons, confused_reissues]
    rfl
  have distinct : (returnedIds (gatewayInstance.history (some (.fresh 1 ⟨.file [] [] []⟩))
      (rejectedWith (asciiString confusingBytes) ++
        [.restart 0 [], .call (.enqueue marketOrder 4)]))).Nodup := distinct
  rw [ids] at distinct
  exact absurd distinct (by decide)

end TradingConnectivity.Gateway
