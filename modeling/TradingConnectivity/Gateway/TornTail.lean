import TradingConnectivity.Gateway.JournalCodec
import TradingConnectivity.Gateway.OrderGateway

/-! # A journal with a torn tail

A crash in the middle of an append leaves a prefix of the records in the file. The decoder takes an
incomplete last record for a corrupt one, so the gateway opens on such a file only if the cut falls
between two records.
-/

namespace TradingConnectivity.Gateway

open Codec

/-! ## An incomplete record -/

/-- A record of which only a strict prefix is left does not decode. -/
theorem decodeOne_torn {entry : JournalEntry} (fits : (encodePayload entry).length ≤ 65535)
    {buf : List UInt8} {offset : ℕ} (cut : buf.drop offset <+: encodeEntry entry)
    (strict : buf.drop offset ≠ encodeEntry entry) : ∃ e, decodeOne buf offset = .error e := by
  have header := frames_decodeHeader entry fits
  set payload := encodePayload entry with payloadDef
  set front := Encoder.u8 entry.tag.toByte ++
    (Encoder.i64 entry.timestampNs ++ Encoder.u16 payload.length) with frontDef
  have shape : encodeEntry entry = front ++ payload := by
    simp only [encodeEntry, frontDef, payloadDef, List.append_assoc]
  rw [shape] at cut strict
  by_cases headed : front <+: buf.drop offset
  · -- the header is complete, so the payload is not
    obtain ⟨rest, unread⟩ := headed
    have read := header.reads ⟨buf, offset⟩ rest unread.symm
    have short : rest.length < payload.length := by
      rw [← unread] at cut strict
      have inside := (List.prefix_append_right_inj front).mp cut
      have differs : rest.length ≠ payload.length := fun same =>
        strict (by rw [inside.eq_of_length same])
      have bound := inside.length_le
      omega
    have missing : (⟨buf, offset + front.length⟩ : Cursor).remaining < payload.length := by
      have length := congrArg List.length unread
      rw [List.length_append, List.length_drop] at length
      change buf.length - (offset + front.length) < payload.length
      omega
    refine ⟨.journalCorrupt offset (.payloadPastBuffer payload.length), ?_⟩
    simp only [decodeOne, read, bind, Except.bind, Decoder.need, need, if_pos missing]
  · have inside : buf.drop offset <+: front :=
      (List.prefix_or_prefix_of_prefix cut (List.prefix_append front payload)).resolve_right headed
    have partly : buf.drop offset ≠ front := fun whole => headed (whole ▸ List.prefix_rfl)
    obtain ⟨e, failed⟩ := header.truncated ⟨buf, offset⟩ inside partly
    refine ⟨e, ?_⟩
    simp only [decodeOne, failed, bind, Except.bind]

/-! ## Complete records -/

/-- The entries whose records are completely contained in the first `n` bytes. -/
def written : List JournalEntry → ℕ → List JournalEntry
  | [], _ => []
  | entry :: rest, n =>
    if (encodeEntry entry).length ≤ n then entry :: written rest (n - (encodeEntry entry).length)
    else []

/-- The bytes end where a record ends. -/
def BetweenRecords (entries : List JournalEntry) (file : List UInt8) : Prop :=
  ∃ k, file = (entries.take k).flatMap encodeEntry

private theorem written_take (entries : List JournalEntry) (k : ℕ) :
    written entries ((entries.take k).flatMap encodeEntry).length = entries.take k := by
  induction entries generalizing k with
  | nil => rw [List.take_nil, written]
  | cons entry rest ih =>
    have size := length_encodeEntry entry
    cases k with
    | zero =>
      rw [List.take_zero, List.flatMap_nil, List.length_nil, written, if_neg (by omega)]
    | succ k =>
      rw [List.take_succ_cons, List.flatMap_cons, List.length_append, written,
        if_pos (Nat.le_add_right _ _), Nat.add_sub_cancel_left, ih]

/-- The record keeps its place in the file and its id, though a symbol or a reason in it may not
read back. -/
structure JournalEntry.Framed (entry : JournalEntry) : Prop where
  cloid : entry.cloid.asStr.utf8ByteSize ≤ 255
  payload : (encodePayload entry).length ≤ 65535

theorem JournalEntry.Representable.framed {entry : JournalEntry} (fits : entry.Representable) :
    entry.Framed :=
  ⟨fits.cloid, fits.payload⟩

/-- The two entries are about the same event of the same order. -/
def JournalEntry.Alike (entry decoded : JournalEntry) : Prop :=
  decoded.tag = entry.tag ∧ decoded.cloid = entry.cloid

/-- A payload that decodes begins with the id of its entry. -/
theorem decodePayload_alike {offset : ℕ} {timestampNs : Int64} {tag : EntryTag}
    {cursor after : Cursor} {decoded : JournalEntry}
    (success : decodePayload offset timestampNs tag cursor = .ok (decoded, after)) :
    decoded.tag = tag ∧ ∃ middle, Decoder.cloid cursor = .ok (decoded.cloid, middle) := by
  have reads {next : ClientOrderId → Reader Error JournalEntry}
      (each : ∀ id, Yields (next id) fun entry => entry.tag = tag ∧ entry.cloid = id)
      (success : (Decoder.cloid >>= next) cursor = .ok (decoded, after)) :
      decoded.tag = tag ∧ ∃ middle, Decoder.cloid cursor = .ok (decoded.cloid, middle) := by
    obtain ⟨id, middle, read, success⟩ := bind_ok success
    obtain ⟨same, rfl⟩ := each id middle decoded after success
    exact ⟨same, middle, read⟩
  cases tag with
  | requested =>
    exact reads (fun id => .bind fun _ => .bind fun _ => .bind fun _ => .bind fun _ =>
      .bind fun _ => .bind fun _ => .pure ⟨rfl, rfl⟩) success
  | acknowledged => exact reads (fun id => .bind fun _ => .pure ⟨rfl, rfl⟩) success
  | filled =>
    exact reads (fun id => .bind fun _ => .bind fun _ => .bind fun _ => .pure ⟨rfl, rfl⟩) success
  | cancelled => exact reads (fun id => .pure ⟨rfl, rfl⟩) success
  | rejected => exact reads (fun id => .bind fun _ => .pure ⟨rfl, rfl⟩) success
  | expired => exact reads (fun id => .pure ⟨rfl, rfl⟩) success

private theorem exists_encodePayload (entry : JournalEntry) :
    ∃ rest, encodePayload entry = Encoder.strU8 entry.cloid.asStr ++ rest := by
  cases entry with
  | orderRequested =>
    simp only [encodePayload, List.append_assoc]
    exact ⟨_, rfl⟩
  | orderFilled =>
    simp only [encodePayload, List.append_assoc]
    exact ⟨_, rfl⟩
  | orderAcknowledged | orderRejected => exact ⟨_, rfl⟩
  | orderCancelled | orderExpired => exact ⟨[], (List.append_nil _).symm⟩

/-- A record that decodes does so as an entry of the same kind and id, and up to its end. -/
theorem decodeOne_alike {entry decoded : JournalEntry} (framed : entry.Framed)
    {buf rest : List UInt8} {offset following : ℕ}
    (unread : buf.drop offset = encodeEntry entry ++ rest)
    (success : decodeOne buf offset = .ok (decoded, following)) :
    entry.Alike decoded ∧ following = offset + (encodeEntry entry).length := by
  obtain ⟨tagByte, timestampNs, payloadLen, dec, tag, after, header, -, known, body, rfl⟩ :=
    decodeOne_eq_ok_iff.mp success
  set payload := encodePayload entry with payloadDef
  set front := Encoder.u8 entry.tag.toByte ++
    (Encoder.i64 entry.timestampNs ++ Encoder.u16 payload.length) with frontDef
  have shape : encodeEntry entry = front ++ payload := by
    simp only [encodeEntry, frontDef, payloadDef, List.append_assoc]
  have atFront : buf.drop offset = front ++ (payload ++ rest) := by
    rw [unread, shape, List.append_assoc]
  have read := (frames_decodeHeader entry framed.payload).reads ⟨buf, offset⟩ _ atFront
  cases header.symm.trans read
  obtain rfl := Except.ok.inj ((EntryTag.tryFrom_toByte entry.tag).symm.trans known)
  have slice : (buf.drop (offset + front.length)).take payload.length = payload := by
    rw [← List.drop_drop, atFront, List.drop_left, List.take_left]
  obtain ⟨tail, split⟩ := exists_encodePayload entry
  obtain ⟨sameTag, middle, id⟩ := decodePayload_alike body
  have own := Decoder.reads_cloid framed.cloid ⟨payload, 0⟩ tail split
  rw [slice, own] at id
  have total : offset + (encodeEntry entry).length = offset + front.length + payload.length := by
    rw [shape, List.length_append, Nat.add_assoc]
  exact ⟨⟨sameTag, (Prod.mk.inj (Except.ok.inj id)).1.symm⟩, total.symm⟩

/-- At the end of the buffer there is nothing to decode. -/
private theorem decodeLoop_done {buf : List UInt8} {fuel pos : ℕ} {decoded : List JournalEntry}
    (empty : buf.drop pos = []) (success : decodeLoop buf fuel pos = .ok decoded) :
    decoded = [] := by
  cases fuel with
  | zero => exact (Except.ok.inj success).symm
  | succ fuel =>
    rw [decodeLoop, if_neg (Nat.not_lt.mpr (List.drop_eq_nil_iff.mp empty))] at success
    exact (Except.ok.inj success).symm

/-- A file that opens ends between two records, and its entries are those written. -/
theorem decodeLoop_alike {entries decoded : List JournalEntry}
    (framed : ∀ entry ∈ entries, entry.Framed) {buf : List UInt8} {fuel pos : ℕ}
    (cut : buf.drop pos <+: entries.flatMap encodeEntry) (enough : (buf.drop pos).length ≤ fuel)
    (success : decodeLoop buf fuel pos = .ok decoded) :
    ∃ k, buf.drop pos = (entries.take k).flatMap encodeEntry ∧
      List.Forall₂ JournalEntry.Alike (entries.take k) decoded := by
  induction entries generalizing fuel pos decoded with
  | nil =>
    obtain rfl := decodeLoop_done (List.prefix_nil.mp cut) success
    exact ⟨0, List.prefix_nil.mp cut, .nil⟩
  | cons entry rest ih =>
    by_cases empty : buf.drop pos = []
    · obtain rfl := decodeLoop_done empty success
      exact ⟨0, empty, .nil⟩
    · have some : 0 < (buf.drop pos).length := List.length_pos_of_ne_nil empty
      have more : pos < buf.length := by
        rw [List.length_drop] at some
        omega
      cases fuel with
      | zero => omega
      | succ fuel =>
        obtain ⟨decodedEntry, following, others, decodedFirst, later, rfl⟩ :=
          decodeLoop_ok more success
        have framedEntry := framed entry List.mem_cons_self
        rw [List.flatMap_cons] at cut
        by_cases complete : encodeEntry entry <+: buf.drop pos
        · obtain ⟨tail, unread⟩ := complete
          obtain ⟨alike, rfl⟩ := decodeOne_alike framedEntry unread.symm decodedFirst
          have moved : buf.drop (pos + (encodeEntry entry).length) = tail := by
            rw [← List.drop_drop, ← unread, List.drop_left]
          rw [← unread] at cut
          have rests := (List.prefix_append_right_inj (encodeEntry entry)).mp cut
          have size := length_encodeEntry entry
          have length := congrArg List.length unread
          rw [List.length_append] at length
          obtain ⟨k, between, others⟩ := ih
            (fun other mem => framed other (List.mem_cons_of_mem _ mem))
            (moved.symm ▸ rests) (by rw [moved]; omega) later
          refine ⟨k + 1, ?_, .cons alike others⟩
          rw [List.take_succ_cons, List.flatMap_cons, ← between, moved, unread]
        · have torn := (List.prefix_or_prefix_of_prefix cut
            (List.prefix_append (encodeEntry entry) _)).resolve_right complete
          have partly : buf.drop pos ≠ encodeEntry entry := fun whole =>
            complete (whole ▸ List.prefix_rfl)
          obtain ⟨e, failed⟩ := decodeOne_torn framedEntry.payload torn partly
          rw [failed] at decodedFirst
          cases decodedFirst

/-- A file that opens ends between two records. -/
private theorem decodeLoop_between {entries decoded : List JournalEntry}
    (fits : ∀ entry ∈ entries, entry.Representable) {buf : List UInt8} {fuel pos : ℕ}
    (cut : buf.drop pos <+: entries.flatMap encodeEntry) (enough : (buf.drop pos).length ≤ fuel)
    (success : decodeLoop buf fuel pos = .ok decoded) :
    BetweenRecords entries (buf.drop pos) := by
  have framed : ∀ entry ∈ entries, entry.Framed := fun entry mem => (fits entry mem).framed
  obtain ⟨k, between, -⟩ := decodeLoop_alike framed cut enough success
  exact ⟨k, between⟩

/-- The file opens and yields the entries that were written completely. -/
def Recovers (entries : List JournalEntry) (instanceId : UInt32) (file : List UInt8)
    (script : List IoOutcome) : Prop :=
  OrderGateway.openFile instanceId (some file) script =
    .ok ((OrderGateway.fresh instanceId ⟨.file file [] script⟩).replayJournal
      (written entries file.length))

/-- A prefix of the records is recovered exactly when it ends between two of them. -/
theorem recovers_iff {entries : List JournalEntry}
    (fits : ∀ entry ∈ entries, entry.Representable) {file : List UInt8}
    (cut : file <+: entries.flatMap encodeEntry) (instanceId : UInt32) (script : List IoOutcome) :
    Recovers entries instanceId file script ↔ BetweenRecords entries file := by
  constructor
  · intro recovers
    rw [Recovers, OrderGateway.openFile, Journal.openFile] at recovers
    cases decoded : decodeAll file with
    | error e =>
      rw [decoded] at recovers
      cases recovers
    | ok recovered =>
      have cutAtStart : file.drop 0 <+: entries.flatMap encodeEntry := cut
      exact decodeLoop_between fits cutAtStart le_rfl decoded
  · rintro ⟨k, rfl⟩
    have fitsTaken : ∀ entry ∈ entries.take k, entry.Representable := fun entry mem =>
      fits entry (List.mem_of_mem_take mem)
    have decoded := decodeAll_encodeEntries fitsTaken
    rw [Recovers, written_take, OrderGateway.openFile, Journal.openFile, decoded]
    rfl

def cancelled : JournalEntry := .orderCancelled 1 ⟨"a"⟩

def expired : JournalEntry := .orderExpired 2 ⟨"b"⟩

private theorem representable_closings : ∀ entry ∈ [cancelled, expired], entry.Representable := by
  intro entry mem
  rcases List.mem_cons.mp mem with rfl | last
  · exact .of_short (by decide) (by rintro _ _ _ ⟨⟩) (by rintro _ _ _ ⟨⟩)
  · obtain rfl := List.mem_singleton.mp last
    exact .of_short (by decide) (by rintro _ _ _ ⟨⟩) (by rintro _ _ _ ⟨⟩)

theorem recovers_iff_first : Recovers [cancelled, expired] 1 (encodeEntry cancelled) [] := by
  apply (recovers_iff representable_closings (List.prefix_append _ _) 1 []).mpr
  exact ⟨1, (List.append_nil _).symm⟩

/-- A gateway does not open on a journal cut in the header of its second record. -/
theorem torn_tail_refused : ¬∀ (entries : List JournalEntry) (instanceId : UInt32)
    (file : List UInt8) (script : List IoOutcome), (∀ entry ∈ entries, entry.Representable) →
      file <+: entries.flatMap encodeEntry → Recovers entries instanceId file script := by
  intro recovers
  have opened := recovers [cancelled, expired] 1 ((encodeEntry cancelled ++
    encodeEntry expired).take 20) [] representable_closings (by decide)
  have refused : decodeAll ((encodeEntry cancelled ++ encodeEntry expired).take 20) =
      .error (.bufferTooShort 22 20) := by decide
  rw [Recovers, OrderGateway.openFile, Journal.openFile, refused] at opened
  cases opened

end TradingConnectivity.Gateway
