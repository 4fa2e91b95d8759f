import TradingConnectivity.Gateway.Effects
import TradingConnectivity.Gateway.TornTail

/-! # An instance over its restarts

An instance is one gateway process after the other over the same journal file. A restart finds what
is in the file, and as many of the bytes still buffered as the closing writer could flush; where
these bytes do not decode, the gateway stays down.
-/

namespace TradingConnectivity.Gateway

/-- The bytes of the file after the writer is closed with that many buffered bytes flushed. -/
def Journal.left (journal : Journal) (flushed : ℕ) : List UInt8 :=
  match journal.writer with
  | .memory buf => buf
  | .file contents buffered _ => contents ++ buffered.take flushed

inductive InstanceInput
  | call (op : GatewayOp)
  | restart (flushed : ℕ) (script : List IoOutcome)
deriving DecidableEq, Repr

def InstanceInput.isEnqueue : InstanceInput → Bool
  | .call op => op.isEnqueue
  | .restart .. => false

/-- The gateway of an instance, `none` once it was refused its file; a step answers with the id it
returned. -/
def gatewayInstance : Machine (Option OrderGateway) InstanceInput (Option ClientOrderId) where
  step
    | none, _ => (none, none)
    | some gw, .call op => (some (gw.exec op).2, (gw.exec op).1.toOption.join)
    | some gw, .restart flushed script =>
      ((OrderGateway.openFile gw.instanceId (some (gw.journal.left flushed)) script).toOption, none)

abbrev InstanceEvent := Machine.Event (Option OrderGateway) InstanceInput (Option ClientOrderId)

/-- A restart replays what the file decodes to. -/
theorem next_restart (gw : OrderGateway) (flushed : ℕ) (script : List IoOutcome) :
    gatewayInstance.next (some gw) (.restart flushed script) =
      match decodeAll (gw.journal.left flushed) with
      | .error _ => none
      | .ok decoded => some ((OrderGateway.fresh gw.instanceId
          ⟨.file (gw.journal.left flushed) [] script⟩).replayJournal decoded) := by
  cases decoded : decodeAll (gw.journal.left flushed) <;>
    simp only [gatewayInstance, Machine.next, OrderGateway.openFile, Journal.openFile, decoded] <;>
    rfl

/-! ## What a journal holds -/

namespace Journal

/-- The next append fails after a part of the record, which does not fit the buffer. -/
def Tears (journal : Journal) (entry : JournalEntry) : Prop :=
  match journal.writer with
  | .file _ buffered (.failed reached _ :: _) =>
    bufCapacity ≤ (encodeEntry entry).length ∧ buffered.length < reached ∧
      reached < buffered.length + (encodeEntry entry).length
  | _ => False

/-- The file and the buffer together hold the records of all entries, and the file at least those
of the durable ones. -/
def Holds (journal : Journal) (durable entries : List JournalEntry) : Prop :=
  match journal.writer with
  | .memory _ => False
  | .file contents buffered _ =>
    contents ++ buffered = entries.flatMap encodeEntry ∧ durable.flatMap encodeEntry <+: contents

/-- A write that fails without tearing takes the record as a whole or not at all. -/
theorem failWrite_whole (contents : List UInt8) {buffered bytes : List UInt8} {reached : ℕ}
    (whole : ¬(bufCapacity ≤ bytes.length ∧ buffered.length < reached ∧
      reached < buffered.length + bytes.length)) :
    contents <+: (failWrite contents buffered bytes reached).1 ∧
      ((failWrite contents buffered bytes reached).1 ++
          (failWrite contents buffered bytes reached).2 = contents ++ buffered ∨
        (failWrite contents buffered bytes reached).1 ++
          (failWrite contents buffered bytes reached).2 = contents ++ buffered ++ bytes) := by
  unfold failWrite
  split_ifs with early small
  · refine ⟨List.prefix_append _ _, .inl ?_⟩
    rw [List.append_assoc, List.take_append_drop]
  · refine ⟨List.prefix_append _ _, .inr ?_⟩
    rw [List.append_assoc, List.take_append_drop, List.append_assoc]
  · -- a record past the buffer, so nothing or all of it has to have reached the file
    refine ⟨List.prefix_append _ _, ?_⟩
    rw [List.append_nil]
    by_cases none : reached = buffered.length
    · rw [none, List.take_left]
      exact .inl rfl
    · have all : (buffered ++ bytes).length ≤ reached := by
        rw [List.length_append]
        omega
      rw [List.take_of_length_le all, List.append_assoc]
      exact .inr rfl

/-- An append that does not tear keeps the records whole, and one that succeeds makes all of them
durable. -/
theorem append_holds {journal : Journal} {durable entries : List JournalEntry}
    {entry : JournalEntry} (holds : journal.Holds durable entries)
    (whole : ¬journal.Tears entry) :
    ((journal.append entry).1 = .ok () ∧
      (journal.append entry).2.Holds (entries ++ [entry]) (entries ++ [entry])) ∨
    (∃ e, (journal.append entry).1 = .error e) ∧
      ((journal.append entry).2.Holds durable entries ∨
        (journal.append entry).2.Holds durable (entries ++ [entry])) := by
  obtain ⟨writer⟩ := journal
  cases writer with
  | memory buf => exact holds.elim
  | file contents buffered script =>
    obtain ⟨together, safe⟩ := holds
    have grown : contents ++ buffered ++ encodeEntry entry =
        (entries ++ [entry]).flatMap encodeEntry := by
      rw [together, List.flatMap_append, List.flatMap_singleton]
    have flushed (rest : List IoOutcome) :
        (Journal.mk (.file (contents ++ buffered ++ encodeEntry entry) [] rest)).Holds
          (entries ++ [entry]) (entries ++ [entry]) :=
      ⟨(List.append_nil _).trans grown, grown ▸ List.prefix_rfl⟩
    cases script with
    | nil => exact .inl ⟨rfl, flushed []⟩
    | cons outcome rest =>
      cases outcome with
      | written => exact .inl ⟨rfl, flushed rest⟩
      | failed reached message =>
        obtain ⟨longer, same | more⟩ := failWrite_whole contents whole
        · exact .inr ⟨⟨_, rfl⟩, .inl ⟨same.trans together, safe.trans longer⟩⟩
        · exact .inr ⟨⟨_, rfl⟩, .inr ⟨more.trans grown, safe.trans longer⟩⟩

/-- What a restart finds of the records begins with the durable ones. -/
theorem left_prefix {journal : Journal} {durable entries : List JournalEntry}
    (holds : journal.Holds durable entries) (flushed : ℕ) :
    journal.left flushed <+: entries.flatMap encodeEntry ∧
      durable.flatMap encodeEntry <+: journal.left flushed := by
  obtain ⟨writer⟩ := journal
  cases writer with
  | memory buf => exact holds.elim
  | file contents buffered script =>
    obtain ⟨together, safe⟩ := holds
    refine ⟨?_, safe.trans (List.prefix_append _ _)⟩
    rw [← together]
    exact (List.prefix_append_right_inj contents).mpr (List.take_prefix flushed buffered)

/-- Of two beginnings of a journal the one with fewer bytes has fewer entries. -/
theorem prefix_of_records {first second entries : List JournalEntry} (begins : first <+: entries)
    (begins' : second <+: entries)
    (bytes : first.flatMap encodeEntry <+: second.flatMap encodeEntry) : first <+: second := by
  rcases List.prefix_or_prefix_of_prefix begins begins' with shorter | ⟨extra, rfl⟩
  · exact shorter
  · have lengths := bytes.length_le
    rw [List.flatMap_append, List.length_append] at lengths
    cases extra with
    | nil => rw [List.append_nil]
    | cons entry rest =>
      have size := length_encodeEntry entry
      rw [List.flatMap_cons, List.length_append] at lengths
      omega

end Journal

end TradingConnectivity.Gateway
