import TradingConnectivity.ConnectorCore.MessageCodec

/-! # Stamping the publish timestamp

The connector encodes a message, overwrites the eight bytes of the publish timestamp in the buffer
and offers the encoded bytes. What it offers is the encoding of the message with that timestamp.
-/

namespace TradingConnectivity.ConnectorCore

open Codec

/-- Where the publish path writes the timestamp. -/
def publishTsOffset : ℕ := 48

def patchPublishTs (buf : List UInt8) (publishTs : Int64) : List UInt8 :=
  overlay buf publishTsOffset (int64Bytes publishTs)

/-! ## Headers -/

namespace MessageHeader

def withPublishTs (header : MessageHeader) (publishTs : Int64) : MessageHeader :=
  { header with localPublishTs := publishTs }

/-- The timestamp is the last field of the header. -/
private theorem patch_wire (header : MessageHeader) (publishTs : Int64) (rest : List UInt8) :
    patchPublishTs (header.wire ++ rest) publishTs =
      (header.withPublishTs publishTs).wire ++ rest := by
  have fits : publishTsOffset + (int64Bytes publishTs).length ≤ header.wire.length := by
    rw [length_wire, length_int64Bytes, publishTsOffset, headerSize]
  rw [patchPublishTs, overlay_append fits]
  rfl

variable {buf : List UInt8} (publishTs : Int64)

private theorem length_patch (enough : headerSize ≤ buf.length) :
    (patchPublishTs buf publishTs).length = buf.length :=
  length_overlay (by rw [length_int64Bytes]; exact enough)

private theorem take_patch {n : ℕ} (before : n ≤ publishTsOffset)
    (enough : headerSize ≤ buf.length) :
    (patchPublishTs buf publishTs).take n = buf.take n :=
  take_overlay before (Nat.le_trans (by decide) enough)

private theorem drop_patch (enough : headerSize ≤ buf.length) :
    (patchPublishTs buf publishTs).drop headerSize = buf.drop headerSize :=
  drop_overlay (by rw [length_int64Bytes]; rfl) (Nat.le_trans (by decide) enough)

private theorem wordAt_patch {offset width : ℕ} (before : offset + width ≤ publishTsOffset)
    (enough : headerSize ≤ buf.length) :
    wordAt (patchPublishTs buf publishTs) offset width = wordAt buf offset width := by
  rw [wordAt, wordAt, List.take_drop, List.take_drop, take_patch publishTs before enough]

private theorem getD_patch {i : ℕ} (before : i < publishTsOffset)
    (enough : headerSize ≤ buf.length) :
    (patchPublishTs buf publishTs).getD i 0 = buf.getD i 0 := by
  have front := congrArg (fun bytes => bytes[i]?) (take_patch publishTs before enough)
  simp only [List.getElem?_take, Nat.lt_succ_self, if_true] at front
  rw [List.getD_eq_getElem?_getD, List.getD_eq_getElem?_getD, front]

private theorem int64At_patch (enough : headerSize ≤ buf.length) :
    int64At (patchPublishTs buf publishTs) publishTsOffset = publishTs := by
  have inside : publishTsOffset ≤ buf.length := Nat.le_trans (by decide) enough
  have written : ((overlay buf publishTsOffset (int64Bytes publishTs)).drop publishTsOffset).take
      (int64Bytes publishTs).length = int64Bytes publishTs := take_drop_overlay inside
  rw [length_int64Bytes] at written
  rw [int64At, uint64At, wordAt, patchPublishTs, written, int64Bytes, ofNat_ofLeBytes_uint64Bytes,
    Int64.toInt64_toUInt64]

/-- Decoding a stamped buffer gives the stamped header. -/
theorem decode_patch (enough : headerSize ≤ buf.length) :
    decode (patchPublishTs buf publishTs) =
      (decode buf).map fun header => header.withPublishTs publishTs := by
  have long : ¬buf.length < headerSize := Nat.not_lt.mpr enough
  have stamp : int64At (patchPublishTs buf publishTs) 48 = publishTs :=
    int64At_patch publishTs enough
  have byte {i : ℕ} (before : i < publishTsOffset) := getD_patch publishTs before enough
  have word {offset width : ℕ} (before : offset + width ≤ publishTsOffset) :=
    wordAt_patch publishTs before enough
  rw [decode, decode, length_patch publishTs enough, if_neg long, if_neg long, stamp,
    byte (by decide : 0 < 48), byte (by decide : 1 < 48), byte (by decide : 2 < 48),
    byte (by decide : 3 < 48)]
  simp only [uint32At, uint64At, int64At, word (by decide : 4 + 4 ≤ 48),
    word (by decide : 8 + 4 ≤ 48), word (by decide : 12 + 4 ≤ 48), word (by decide : 16 + 8 ≤ 48),
    word (by decide : 24 + 8 ≤ 48), word (by decide : 32 + 8 ≤ 48), word (by decide : 40 + 8 ≤ 48)]
  cases MessageType.tryFrom (buf.getD 1 0) with
  | error e => rfl
  | ok messageType =>
    cases VenueId.tryFrom (buf.getD 2 0) with
    | error e => rfl
    | ok venueId => cases MarketType.tryFrom (buf.getD 3 0) <;> rfl

end MessageHeader

/-! ## Bodies -/

/-- The body is encoded behind the header, so the timestamp may be set before or after it. -/
theorem encodeWith_withPublishTs (header : MessageHeader) (body : BufWriter Error Unit)
    (publishTs : Int64) {buf : List UInt8} (enough : headerSize ≤ buf.length) :
    encodeWith (header.withPublishTs publishTs) body buf =
      (encodeWith header body buf).map id (patchPublishTs · publishTs) := by
  have behind (header : MessageHeader) :
      (header.wire ++ buf.drop headerSize).drop headerSize = buf.drop headerSize :=
    List.drop_left' header.length_wire
  have front (header : MessageHeader) :
      (header.wire ++ buf.drop headerSize).take headerSize = header.wire :=
    List.take_left' header.length_wire
  rw [encodeWith, encodeWith, MessageHeader.encodeInto_eq _ enough,
    MessageHeader.encodeInto_eq _ enough]
  simp only [behind, front]
  rcases body ⟨buf.drop headerSize, 0⟩ with ⟨result, enc⟩
  cases result <;> simp only [Prod.map, id, header.patch_wire publishTs enc.buf]

/-- A body that does no more with the header than store it decodes alike behind a stamped one. -/
theorem decodeWith_patch {α β : Type} {expected : MessageType}
    {body : MessageHeader → Reader Error α} {wrap : α → β} {stamp : β → β} {publishTs : Int64}
    (stores : ∀ header,
      wrap <$> body (header.withPublishTs publishTs) = (fun m => stamp (wrap m)) <$> body header)
    {buf : List UInt8} (enough : headerSize ≤ buf.length) :
    (decodeWith expected body (patchPublishTs buf publishTs)).map wrap =
      ((decodeWith expected body buf).map wrap).map stamp := by
  have behind := MessageHeader.drop_patch publishTs enough
  rw [decodeWith, decodeWith, MessageHeader.decode_patch publishTs enough, behind]
  cases MessageHeader.decode buf with
  | error e => rfl
  | ok header =>
    by_cases announced : header.messageType = expected
    · have kept : (header.withPublishTs publishTs).messageType = expected := announced
      have read := congrArg (Except.map Prod.fst)
        (congrFun (stores header) ⟨buf.drop headerSize, 0⟩)
      simp only [Except.map, bind, Except.bind, announced, kept, ne_eq, not_true_eq_false, if_false]
      simp only [Functor.map, StateT.map, bind, Except.bind] at read
      generalize body (header.withPublishTs publishTs) _ = stamped at read ⊢
      generalize body header _ = plain at read ⊢
      cases stamped <;> cases plain <;> exact read
    · have kept : (header.withPublishTs publishTs).messageType ≠ expected := announced
      simp only [Except.map, bind, Except.bind, if_pos announced, if_pos kept]
      rfl

/-! ## Messages -/

namespace NormalizedMessage

/-- The same message with another publish timestamp. -/
def withPublishTs (m : NormalizedMessage) (publishTs : Int64) : NormalizedMessage :=
  match m with
  | instrumentDefinition m =>
      instrumentDefinition { m with header := m.header.withPublishTs publishTs }
  | tradingStatus m => tradingStatus { m with header := m.header.withPublishTs publishTs }
  | bookSnapshot m => bookSnapshot { m with header := m.header.withPublishTs publishTs }
  | bookDelta m => bookDelta { m with header := m.header.withPublishTs publishTs }
  | bestBidOffer m => bestBidOffer { m with header := m.header.withPublishTs publishTs }
  | trade m => trade { m with header := m.header.withPublishTs publishTs }
  | markPrice m => markPrice { m with header := m.header.withPublishTs publishTs }
  | fundingRate m => fundingRate { m with header := m.header.withPublishTs publishTs }
  | liquidation m => liquidation { m with header := m.header.withPublishTs publishTs }
  | openInterest m => openInterest { m with header := m.header.withPublishTs publishTs }
  | accountUpdate m => accountUpdate { m with header := m.header.withPublishTs publishTs }
  | orderUpdate m => orderUpdate { m with header := m.header.withPublishTs publishTs }
  | heartbeat m => heartbeat { m with header := m.header.withPublishTs publishTs }
  | feedStatus m => feedStatus { m with header := m.header.withPublishTs publishTs }
  | gapDetected m => gapDetected { m with header := m.header.withPublishTs publishTs }
  | bookStale m => bookStale { m with header := m.header.withPublishTs publishTs }
  | bookRecovered m => bookRecovered { m with header := m.header.withPublishTs publishTs }

/-- A message is encoded as its header and a body that does not look at the header. -/
private theorem exists_body (m : NormalizedMessage) :
    ∃ body, m.encodeInto = encodeWith m.header body ∧
      ∀ publishTs, (m.withPublishTs publishTs).encodeInto =
        encodeWith (m.header.withPublishTs publishTs) body := by
  cases m with
  | accountUpdate m => exact ⟨pure (), rfl, fun _ => rfl⟩
  | orderUpdate m => exact ⟨pure (), rfl, fun _ => rfl⟩
  | heartbeat m => exact ⟨pure (), rfl, fun _ => rfl⟩
  | _ => exact ⟨_, rfl, fun _ => rfl⟩

/-- Stamping the encoding is encoding the stamped message, whether or not encoding succeeds. -/
private theorem encodeInto_withPublishTs (m : NormalizedMessage) (publishTs : Int64)
    {buf : List UInt8}
    (enough : headerSize ≤ buf.length) :
    (m.withPublishTs publishTs).encodeInto buf =
      (m.encodeInto buf).map id (patchPublishTs · publishTs) := by
  obtain ⟨body, own, stamped⟩ := m.exists_body
  rw [own, stamped, encodeWith_withPublishTs m.header body publishTs enough]

private theorem decodeAs_patch (kind : MessageType) (publishTs : Int64) {buf : List UInt8}
    (enough : headerSize ≤ buf.length) :
    decodeAs kind (patchPublishTs buf publishTs) =
      (decodeAs kind buf).map (withPublishTs · publishTs) := by
  cases kind with
  | bookChecksum => rfl
  | _ =>
    refine decodeWith_patch (fun header => ?_) enough
    simp only [map_bind, map_pure]
    rfl

/-- Decoding a stamped message gives the decoded message with the stamp. -/
private theorem fromBytes_patch (publishTs : Int64) {buf : List UInt8}
    (enough : headerSize ≤ buf.length) :
    fromBytes (patchPublishTs buf publishTs) =
      (fromBytes buf).map (withPublishTs · publishTs) := by
  have stamped := MessageHeader.decode_patch publishTs enough
  cases decoded : MessageHeader.decode buf with
  | error e =>
    rw [decoded] at stamped
    rw [fromBytes, fromBytes, stamped, decoded]
    rfl
  | ok header =>
    rw [decoded] at stamped
    rw [fromBytes_of_header stamped, fromBytes_of_header decoded]
    exact decodeAs_patch header.messageType publishTs enough

/-! ## The publish path -/

/-- Encode, stamp and offer: the bytes that are offered, if any, and the buffer afterwards. The
timestamp is the reading of the clock between the two. -/
def publishOne (m : NormalizedMessage) (publishTs : Int64) (buf : List UInt8) :
    Option (List UInt8) × List UInt8 :=
  match m.encodeInto buf with
  -- the connector logs the error and publishes nothing
  | (.error _, buf) => (none, buf)
  | (.ok len, buf) =>
    let buf := patchPublishTs buf publishTs
    (some (buf.take len), buf)

/-- An encoding takes at least the bytes of the header and leaves the buffer its length. -/
theorem enough_of_encodeWith {header : MessageHeader} {body : BufWriter Error Unit}
    {buf encoded : List UInt8} {len : ℕ}
    (encodes : encodeWith header body buf = (.ok len, encoded)) :
    headerSize ≤ buf.length ∧ headerSize ≤ len ∧ header.wire <+: encoded := by
  by_cases short : buf.length < headerSize
  · rw [encodeWith, MessageHeader.encodeInto, if_pos short] at encodes
    cases encodes
  · have enough := Nat.not_lt.mp short
    have front : (header.wire ++ buf.drop headerSize).take headerSize = header.wire :=
      List.take_left' header.length_wire
    rw [encodeWith, MessageHeader.encodeInto_eq _ enough] at encodes
    simp only [front] at encodes
    split at encodes
    · cases encodes
    · cases encodes
      exact ⟨enough, Nat.le_add_right _ _, List.prefix_append _ _⟩

theorem enough_of_encodeInto {m : NormalizedMessage} {buf encoded : List UInt8} {len : ℕ}
    (encodes : m.encodeInto buf = (.ok len, encoded)) :
    headerSize ≤ buf.length ∧ headerSize ≤ len ∧ m.header.wire <+: encoded := by
  obtain ⟨body, own, -⟩ := m.exists_body
  rw [own] at encodes
  exact enough_of_encodeWith encodes

/-- Overwriting the bytes of the publish timestamp in an encoding gives the encoding of the message
with that timestamp, and this is what the connector publishes. No byte beside it changes, and what
decodes from the bytes changes in this field alone. -/
theorem patch_commutes {m : NormalizedMessage} (publishTs : Int64) {buf encoded : List UInt8}
    {len : ℕ} (encodes : m.encodeInto buf = (.ok len, encoded)) :
    (m.withPublishTs publishTs).encodeInto buf = (.ok len, patchPublishTs encoded publishTs) ∧
    m.publishOne publishTs buf =
      (some ((patchPublishTs encoded publishTs).take len), patchPublishTs encoded publishTs) ∧
    (∀ i, i < publishTsOffset ∨ headerSize ≤ i →
      (patchPublishTs encoded publishTs)[i]? = encoded[i]?) ∧
    fromBytes ((patchPublishTs encoded publishTs).take len) =
      (fromBytes (encoded.take len)).map (withPublishTs · publishTs) := by
  obtain ⟨enough, whole, front⟩ := enough_of_encodeInto encodes
  have long : headerSize ≤ encoded.length := by
    have size := front.length_le
    rwa [MessageHeader.length_wire] at size
  have inside : publishTsOffset ≤ encoded.length := Nat.le_trans (by decide) long
  have width : publishTsOffset + (int64Bytes publishTs).length = headerSize := by
    rw [length_int64Bytes]
    rfl
  refine ⟨?_, ?_, ?_, ?_⟩
  · rw [encodeInto_withPublishTs m publishTs enough, encodes]
    rfl
  · rw [publishOne, encodes]
  · rintro i (before | behind)
    · have kept := congrArg (fun bytes : List UInt8 => bytes[i]?)
        (MessageHeader.take_patch publishTs (Nat.le_refl publishTsOffset) long)
      simpa only [List.getElem?_take, if_pos before] using kept
    · have kept := congrArg (fun bytes : List UInt8 => bytes[i - headerSize]?)
        (MessageHeader.drop_patch publishTs long)
      simpa only [List.getElem?_drop, Nat.add_sub_cancel' behind] using kept
  · rw [patchPublishTs, take_overlay_of_le (by rw [width]; exact whole) inside]
    refine fromBytes_patch publishTs ?_
    rw [List.length_take]
    exact Nat.le_min.mpr ⟨whole, long⟩

theorem patch_commutes_oneBid :
    let buf : List UInt8 := List.replicate 128 0
    let encoded := (oneBid.encodeInto buf).2
    (oneBid.withPublishTs 9).encodeInto buf = (.ok 99, patchPublishTs encoded 9) ∧
    oneBid.publishOne 9 buf =
      (some ((patchPublishTs encoded 9).take 99), patchPublishTs encoded 9) ∧
    (∀ i, i < publishTsOffset ∨ headerSize ≤ i → (patchPublishTs encoded 9)[i]? = encoded[i]?) ∧
    fromBytes ((patchPublishTs encoded 9).take 99) =
      (fromBytes (encoded.take 99)).map (withPublishTs · 9) := by
  intro buf encoded
  exact patch_commutes 9 (by decide +kernel)

end NormalizedMessage

end TradingConnectivity.ConnectorCore
