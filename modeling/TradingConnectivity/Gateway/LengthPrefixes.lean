import TradingConnectivity.Gateway.JournalCodec
import TradingConnectivity.Gateway.OrderGateway

/-! # Length prefixes of the journal

Whatever a journal decodes to is representable, because every length was read from its prefix.
Appending never refuses an entry, so a journal reads back as it was written exactly when all its
entries are representable.
-/

namespace TradingConnectivity.Gateway

open Codec

/-! ## Decoded strings -/

namespace Decoder

private theorem str_ok {len : ℕ} {s : String} {cursor after : Cursor}
    (success : str len cursor = .ok (s, after)) :
    s.utf8ByteSize = len ∧ len ≤ cursor.remaining ∧
      after = { cursor with pos := cursor.pos + len } := by
  obtain ⟨_, checked, ran, success⟩ := bind_ok success
  rw [need, Codec.need] at ran
  split at ran
  · cases ran
  next enough =>
  obtain ⟨-, rfl⟩ := Prod.mk.inj (Except.ok.inj ran)
  obtain ⟨_, _, ran, success⟩ := bind_ok success
  obtain ⟨rfl, rfl⟩ := Prod.mk.inj (Except.ok.inj ran)
  have size : ((cursor.buf.drop cursor.pos).take len).length = len := by
    rw [Cursor.remaining] at enough
    rw [List.length_take, List.length_drop]
    omega
  cases decoded : ofStrBytes? ((cursor.buf.drop cursor.pos).take len) with
  | none =>
    simp only [decoded] at success
    cases success
  | some t =>
    simp only [decoded] at success
    obtain ⟨rfl, rfl⟩ := Prod.mk.inj (Except.ok.inj success)
    exact ⟨(utf8ByteSize_of_ofStrBytes? decoded).trans size, by omega, rfl⟩

/-- A length and the string behind it stand inside the buffer. -/
private theorem strAfter_ok {width len : ℕ} {s : String} {cursor middle after : Cursor}
    (read : width ≤ cursor.remaining ∧ middle = { cursor with pos := cursor.pos + width })
    (positive : 0 < width) (success : str len middle = .ok (s, after)) :
    s.utf8ByteSize = len ∧ after.buf = cursor.buf ∧
      after.pos = cursor.pos + width + s.utf8ByteSize ∧ after.pos ≤ cursor.buf.length := by
  obtain ⟨enough, rfl⟩ := read
  obtain ⟨size, room, rfl⟩ := str_ok success
  rw [Cursor.remaining] at enough room
  simp only at room
  refine ⟨size, rfl, by simp only [size], ?_⟩
  simp only
  omega

/-- A short string is at most 255 bytes long. -/
private theorem strU8_ok {s : String} {cursor after : Cursor}
    (success : strU8 cursor = .ok (s, after)) :
    s.utf8ByteSize ≤ 255 ∧ after.buf = cursor.buf ∧
      after.pos = cursor.pos + 1 + s.utf8ByteSize ∧ after.pos ≤ cursor.buf.length := by
  obtain ⟨len, middle, first, second⟩ := bind_ok success
  obtain ⟨n, _, read, made⟩ := bind_ok first
  obtain ⟨rfl, rfl⟩ := Prod.mk.inj (Except.ok.inj made)
  obtain ⟨size, inside⟩ := strAfter_ok (readLe_ok read).2 Nat.one_pos second
  have bound := (UInt8.ofNat n).toNat_lt
  exact ⟨by omega, inside⟩

private theorem strU16_ok {s : String} {cursor after : Cursor}
    (success : strU16 cursor = .ok (s, after)) :
    after.buf = cursor.buf ∧ after.pos = cursor.pos + 2 + s.utf8ByteSize ∧
      after.pos ≤ cursor.buf.length := by
  obtain ⟨len, middle, read, second⟩ := bind_ok success
  exact (strAfter_ok (readLe_ok read).2 Nat.two_pos second).2

private theorem cloid_ok {id : ClientOrderId} {cursor after : Cursor}
    (success : cloid cursor = .ok (id, after)) :
    id.asStr.utf8ByteSize ≤ 255 ∧ after.buf = cursor.buf ∧
      after.pos = cursor.pos + 1 + id.asStr.utf8ByteSize ∧ after.pos ≤ cursor.buf.length := by
  obtain ⟨s, middle, read, made⟩ := bind_ok success
  obtain ⟨rfl, rfl⟩ := Prod.mk.inj (Except.ok.inj made)
  exact strU8_ok read

end Decoder

/-! ## Decoded records -/

/-- A payload that is decoded has short strings, and a rejection fits its payload. -/
theorem decodePayload_ok {offset : ℕ} {timestampNs : Int64} {tag : EntryTag}
    {payload : List UInt8} {entry : JournalEntry} {after : Cursor}
    (success : decodePayload offset timestampNs tag ⟨payload, 0⟩ = .ok (entry, after))
    (short : payload.length ≤ 65535) : entry.Representable := by
  cases tag with
  | requested =>
    obtain ⟨id, c1, readId, success⟩ := bind_ok success
    obtain ⟨symbol, c2, readSymbol, success⟩ := bind_ok success
    obtain ⟨side, c3, -, success⟩ := bind_ok success
    obtain ⟨orderType, c4, -, success⟩ := bind_ok success
    obtain ⟨tif, c5, -, success⟩ := bind_ok success
    obtain ⟨qty, c6, -, success⟩ := bind_ok success
    obtain ⟨price, c7, -, made⟩ := bind_ok success
    obtain ⟨rfl, rfl⟩ := Prod.mk.inj (Except.ok.inj made)
    refine .of_short (Decoder.cloid_ok readId).1 ?_ (by rintro _ _ _ ⟨⟩)
    rintro _ _ _ ⟨⟩
    exact (Decoder.strU8_ok readSymbol).1
  | acknowledged =>
    obtain ⟨id, c1, readId, success⟩ := bind_ok success
    obtain ⟨exchangeId, c2, -, made⟩ := bind_ok success
    obtain ⟨rfl, rfl⟩ := Prod.mk.inj (Except.ok.inj made)
    exact .of_short (Decoder.cloid_ok readId).1 (by rintro _ _ _ ⟨⟩) (by rintro _ _ _ ⟨⟩)
  | filled =>
    obtain ⟨id, c1, readId, success⟩ := bind_ok success
    obtain ⟨qty, c2, -, success⟩ := bind_ok success
    obtain ⟨price, c3, -, success⟩ := bind_ok success
    obtain ⟨isFinal, c4, -, made⟩ := bind_ok success
    obtain ⟨rfl, rfl⟩ := Prod.mk.inj (Except.ok.inj made)
    exact .of_short (Decoder.cloid_ok readId).1 (by rintro _ _ _ ⟨⟩) (by rintro _ _ _ ⟨⟩)
  | cancelled =>
    obtain ⟨id, c1, readId, made⟩ := bind_ok success
    obtain ⟨rfl, rfl⟩ := Prod.mk.inj (Except.ok.inj made)
    exact .of_short (Decoder.cloid_ok readId).1 (by rintro _ _ _ ⟨⟩) (by rintro _ _ _ ⟨⟩)
  | rejected =>
    obtain ⟨id, c1, readId, success⟩ := bind_ok success
    obtain ⟨reason, c2, readReason, made⟩ := bind_ok success
    obtain ⟨rfl, rfl⟩ := Prod.mk.inj (Except.ok.inj made)
    obtain ⟨shortId, sameBuf, pos1, -⟩ := Decoder.cloid_ok readId
    obtain ⟨-, pos2, inside⟩ := Decoder.strU16_ok readReason
    refine .of_short shortId (by rintro _ _ _ ⟨⟩) ?_
    -- the reason was read from the payload, so both strings fit it
    rintro _ _ _ ⟨⟩
    rw [sameBuf] at inside
    simp only [encodePayload, Encoder.strU8, Encoder.strU16, Encoder.u8, Encoder.u16,
      List.length_append, List.length_singleton, length_leBytes, length_strBytes]
    simp only at pos1 inside
    omega
  | expired =>
    obtain ⟨id, c1, readId, made⟩ := bind_ok success
    obtain ⟨rfl, rfl⟩ := Prod.mk.inj (Except.ok.inj made)
    exact .of_short (Decoder.cloid_ok readId).1 (by rintro _ _ _ ⟨⟩) (by rintro _ _ _ ⟨⟩)

private theorem decodeHeader_ok {tagByte : UInt8} {timestampNs : Int64} {payloadLen : ℕ}
    {cursor after : Cursor}
    (success : decodeHeader cursor = .ok ((tagByte, timestampNs, payloadLen), after)) :
    payloadLen ≤ 65535 := by
  obtain ⟨_, _, -, success⟩ := bind_ok success
  obtain ⟨_, _, -, success⟩ := bind_ok success
  obtain ⟨len, _, read, made⟩ := bind_ok success
  obtain ⟨same, -⟩ := Prod.mk.inj (Except.ok.inj made)
  obtain ⟨-, -, rfl⟩ := (Prod.mk.injEq ..).mp same |>.imp_right (Prod.mk.injEq ..).mp
  have bound := (readLe_ok read).1
  omega

private theorem decodeOne_representable {buf : List UInt8} {offset following : ℕ}
    {entry : JournalEntry}
    (decoded : decodeOne buf offset = .ok (entry, following)) : entry.Representable := by
  obtain ⟨_, _, payloadLen, dec, _, _, header, _, _, payload, _⟩ :=
    decodeOne_eq_ok_iff.mp decoded
  have short := decodeHeader_ok header
  refine decodePayload_ok payload ?_
  rw [List.length_take]
  omega

/-- Every entry that a journal decodes to is representable. -/
theorem decodeAll_representable {buf : List UInt8} {entries : List JournalEntry}
    (decoded : decodeAll buf = .ok entries) : ∀ entry ∈ entries, entry.Representable := by
  suffices loop : ∀ fuel pos entries, decodeLoop buf fuel pos = .ok entries →
      ∀ entry ∈ entries, entry.Representable from loop _ _ _ decoded
  intro fuel
  induction fuel with
  | zero =>
    intro pos entries done
    obtain rfl := Except.ok.inj done
    exact fun entry mem => absurd mem List.not_mem_nil
  | succ fuel ih =>
    intro pos entries success
    by_cases more : pos < buf.length
    · obtain ⟨first, following, rest, decoded, later, rfl⟩ := decodeLoop_ok more success
      intro entry mem
      rcases List.mem_cons.mp mem with rfl | tail
      · exact decodeOne_representable decoded
      · exact ih _ _ later entry tail
    · rw [decodeLoop, if_neg more] at success
      obtain rfl := Except.ok.inj success
      exact fun entry mem => absurd mem List.not_mem_nil

/-! ## Appending and reading back -/

namespace Journal

/-- Append entries one after the other, whatever the single appends return. -/
def appendAll (journal : Journal) : List JournalEntry → Journal
  | [] => journal
  | entry :: rest => (journal.append entry).2.appendAll rest

/-- The entries whose append succeeds. -/
def accepted (journal : Journal) : List JournalEntry → List JournalEntry
  | [] => []
  | entry :: rest =>
    match journal.append entry with
    | (.ok (), after) => entry :: after.accepted rest
    | (.error _, after) => after.accepted rest

/-- An append that fails writes nothing. -/
def RefusesCleanly (journal : Journal) : List JournalEntry → Prop
  | [] => True
  | entry :: rest =>
    ((journal.append entry).1 ≠ .ok () → (journal.append entry).2.contents = journal.contents) ∧
      (journal.append entry).2.RefusesCleanly rest

/-- The accepted entries read back as they were appended, and refused ones leave no trace. -/
def Faithful (journal : Journal) (entries : List JournalEntry) : Prop :=
  decodeAll (journal.appendAll entries).contents = .ok (journal.accepted entries) ∧
    journal.RefusesCleanly entries

/-- Unless the file system fails, every entry is accepted and its record written. -/
theorem appendAll_reliable {journal : Journal} (reliable : journal.Reliable)
    (entries : List JournalEntry) :
    (journal.appendAll entries).contents = journal.contents ++ entries.flatMap encodeEntry ∧
      journal.accepted entries = entries ∧ journal.RefusesCleanly entries := by
  induction entries generalizing journal with
  | nil => exact ⟨(List.append_nil _).symm, rfl, trivial⟩
  | cons entry rest ih =>
    obtain ⟨after, appended, stays, grown⟩ := append_reliable reliable entry
    obtain ⟨contents, all, clean⟩ := ih stays
    refine ⟨?_, ?_, ?_, ?_⟩
    · rw [appendAll, appended, contents, grown, List.flatMap_cons, List.append_assoc]
    · rw [accepted, appended]
      simp only [all]
    · intro refused
      rw [appended] at refused
      exact absurd rfl refused
    · rw [appended]
      exact clean

/-- A new journal reads back as it was written exactly when all entries are representable. -/
theorem faithful_iff {journal : Journal} (reliable : journal.Reliable)
    (empty : journal.contents = []) (entries : List JournalEntry) :
    journal.Faithful entries ↔ ∀ entry ∈ entries, entry.Representable := by
  obtain ⟨contents, all, clean⟩ := appendAll_reliable reliable entries
  rw [Faithful, contents, empty, List.nil_append, all]
  constructor
  · rintro ⟨decoded, -⟩
    exact decodeAll_representable decoded
  · intro fits
    exact ⟨decodeAll_encodeEntries fits, clean⟩

theorem faithful_iff_cancelled :
    inMemory.Faithful [.orderCancelled 1 ⟨"a"⟩, .orderRejected 2 ⟨"b"⟩ "margin"] := by
  have reliable : inMemory.Reliable := trivial
  apply (faithful_iff reliable rfl _).mpr
  intro entry mem
  rcases List.mem_cons.mp mem with rfl | mem
  · exact .of_short (by decide) (by rintro _ _ _ ⟨⟩) (by rintro _ _ _ ⟨⟩)
  · obtain rfl := List.mem_singleton.mp mem
    exact .of_short (by decide) (by rintro _ _ _ ⟨⟩) (by rintro _ _ _ ⟨⟩; decide)

end Journal

def marketOrder : OrderRequest where
  symbol := "BTCUSDT"
  side := .buy
  orderType := .market
  qty := 1
  limitPrice := none
  timeInForce := .goodTillCancel

/-- A text of some length; one of 65536 bytes has the length zero in its prefix. -/
def repeated (n : ℕ) : String := String.ofList (List.replicate n 'x')

private theorem size_repeated (n : ℕ) : (repeated n).utf8ByteSize = n := by
  have letter : 'x'.utf8Size = 1 := by decide
  rw [repeated, utf8ByteSize_ofList_replicate, letter, Nat.mul_one]

/-- A rejection whose text does not fit its prefix is never read back. -/
private theorem decodeAll_ne_of_long {buf : List UInt8} {entries : List JournalEntry}
    {timestampNs : Int64}
    {id : ClientOrderId} {reason : String} (long : 65535 < reason.utf8ByteSize)
    (mem : .orderRejected timestampNs id reason ∈ entries) : decodeAll buf ≠ .ok entries := by
  intro decoded
  have short := (decodeAll_representable decoded _ mem).payload
  simp only [encodePayload, Encoder.strU16, List.length_append, length_strBytes] at short
  omega

/-- The id of the first order of instance 1. -/
def firstId : ClientOrderId := ⟨"cc-0001-0000000000000000"⟩

private theorem onReject_accepts (reason : String) :
    (((OrderGateway.inMemory 1).enqueue marketOrder 1).2.onReject firstId reason 2).1 =
      .ok () := rfl

/-- The gateway journals the whole text of a rejection, and then the order cannot be read back. -/
theorem long_reason_corrupts :
    ((OrderGateway.inMemory 1).enqueue marketOrder 1).1 = .ok firstId ∧
    (((OrderGateway.inMemory 1).enqueue marketOrder 1).2.onReject firstId (repeated 65536) 2).1 =
      .ok () ∧
    decodeAll (((OrderGateway.inMemory 1).enqueue marketOrder 1).2.onReject firstId (repeated 65536)
      2).2.journal.contents ≠
        .ok [.orderRequested 1 firstId marketOrder, .orderRejected 2 firstId (repeated 65536)] := by
  have long : 65535 < (repeated 65536).utf8ByteSize := by
    rw [size_repeated]
    omega
  refine ⟨by decide, onReject_accepts _, ?_⟩
  exact decodeAll_ne_of_long long (List.mem_cons_of_mem _ List.mem_cons_self)

end TradingConnectivity.Gateway
