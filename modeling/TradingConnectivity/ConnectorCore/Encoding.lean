import TradingConnectivity.Codec.Local
import TradingConnectivity.ConnectorCore.MessageCodec
import TradingConnectivity.ConnectorCore.PublishTimestamp

/-! # What an encoding leaves in the buffer

Encoding a message never changes the length of the buffer, whether or not it succeeds
(`length_encodeInto`), and it succeeds only where all bytes of the message fit, so that whatever it
reports to have written decodes to the message (`fromBytes_of_encodeInto`).
-/

namespace TradingConnectivity.ConnectorCore

open Codec

namespace Encoder

theorem local_putStr (s : String) : Local (putStr s) := by
  have body : Local (do putU16 (UInt16.ofNat (strBytes s).length); put tooShort (strBytes s)) :=
    (Local.put _ _).bind fun _ => .put _ _
  rw [putStr]
  exact .ite ((Local.throw _).bind fun _ => body) body

private theorem local_putLevels (levels : List MarketData.PriceLevel) : Local
    (putLevels levels) := by
  have each : ∀ lvl, Local (putLevel lvl) := fun lvl => (Local.put _ _).bind fun _ => .put _ _
  have body : Local (do putU32 (UInt32.ofNat levels.length); levels.forM putLevel) :=
    (Local.put _ _).bind fun _ => .forM each levels
  rw [putLevels]
  exact .ite ((Local.throw _).bind fun _ => body) body

theorem writes_putStr {s : String} (fits : s.utf8ByteSize ≤ u16Max) :
    Writes (putStr s) (uint16Bytes (UInt16.ofNat s.utf8ByteSize) ++ strBytes s) := by
  rw [putStr, if_neg (Nat.not_lt.mpr (by rwa [length_strBytes]))]
  exact (writes_put _ _).bind (writes_put _ _)

private theorem needs_putStr (s : String) : Needs (putStr s) (s.utf8ByteSize ≤ u16Max) := by
  intro cursor a after ran
  by_contra long
  have refused : (strBytes s).length > u16Max := Nat.not_le.mp long
  simp only [putStr, if_pos refused] at ran
  cases ran

private theorem needs_putLevels (levels : List MarketData.PriceLevel) :
    Needs (putLevels levels) (levels.length ≤ u32Max) := by
  intro cursor a after ran
  by_contra long
  simp only [putLevels, if_pos (Nat.not_le.mp long)] at ran
  cases ran

end Encoder

section Local

variable {header : MessageHeader} {body : BufWriter Error Unit} {buf encoded : List UInt8} {len : ℕ}

private theorem take_wire (header : MessageHeader) (more : List UInt8) :
    (header.wire ++ more).take headerSize = header.wire := List.take_left' header.length_wire

private theorem drop_wire (header : MessageHeader) (more : List UInt8) :
    (header.wire ++ more).drop headerSize = more := List.drop_left' header.length_wire

/-- Encoding never changes the length of the buffer, whether it succeeds or not. -/
theorem length_encodeWith (here : Local body) (header : MessageHeader) (buf : List UInt8) :
    (encodeWith header body buf).2.length = buf.length := by
  rw [encodeWith]
  by_cases short : buf.length < headerSize
  · rw [MessageHeader.encodeInto, if_pos short]
  · have enough := Nat.not_lt.mp short
    rw [header.encodeInto_eq enough]
    have kept := here.length ⟨buf.drop headerSize, 0⟩ (Nat.zero_le _)
    rw [List.length_drop] at kept
    simp only [take_wire, drop_wire]
    split <;> rename_i ran <;> rw [ran] at kept <;>
      rw [List.length_append, header.length_wire, kept, Nat.add_sub_cancel' enough]

/-- An encoding that succeeds does the same in a longer buffer. -/
theorem encodeWith_append (here : Local body)
    (encodes : encodeWith header body buf = (.ok len, encoded)) (rest : List UInt8) :
    len ≤ buf.length ∧ encodeWith header body (buf ++ rest) = (.ok len, encoded ++ rest) := by
  obtain ⟨enough, -, -⟩ := NormalizedMessage.enough_of_encodeWith encodes
  have longer : headerSize ≤ (buf ++ rest).length := by
    rw [List.length_append]
    omega
  rw [encodeWith, header.encodeInto_eq enough] at encodes
  rw [encodeWith, header.encodeInto_eq longer]
  simp only [take_wire, drop_wire] at encodes ⊢
  cases ran : body ⟨buf.drop headerSize, 0⟩ with | mk result after =>
  rw [ran] at encodes
  cases result with
  | error e => cases encodes
  | ok a =>
    have within : (⟨buf.drop headerSize, 0⟩ : Cursor).pos ≤
        (⟨buf.drop headerSize, 0⟩ : Cursor).buf.length := Nat.zero_le _
    have size := here.length _ within
    have bound := here.inside _ a after within ran
    have again := here.longer _ a after within ran rest
    rw [ran] at size
    rw [List.length_drop] at size
    cases encodes
    rw [List.drop_append_of_le_length enough, again]
    exact ⟨by simp only at size; omega, by rw [List.append_assoc]⟩

variable {α : Type} {decode : List UInt8 → Except Error α} {message : α} {bytes : List UInt8}

/-- An encoding that succeeds has written the bytes of the message. -/
theorem encodeWith_eq (here : Local body)
    (transmits : Transmits header (encodeWith header body) decode message bytes)
    (encodes : encodeWith header body buf = (.ok len, encoded)) :
    len = bytes.length ∧ bytes.length ≤ buf.length ∧
      encoded = bytes ++ buf.drop bytes.length := by
  obtain ⟨fits, longer⟩ := encodeWith_append here encodes bytes
  have room : bytes.length ≤ (buf ++ bytes).length := by
    rw [List.length_append]
    omega
  rw [transmits.encodes _ room] at longer
  have whole : len = bytes.length := (Except.ok.inj (congrArg Prod.fst longer)).symm
  rw [whole] at fits encodes
  rw [transmits.encodes buf fits] at encodes
  exact ⟨whole, fits, (congrArg Prod.snd encodes).symm⟩

/-- The bytes of a message are those of its header and those of its body. -/
theorem length_of_body (transmits : Transmits header (encodeWith header body) decode message bytes)
    {written : List UInt8} (writes : Writes body written) :
    bytes.length = headerSize + written.length := by
  obtain ⟨buf, size⟩ : ∃ buf : List UInt8,
      buf.length = headerSize + written.length + bytes.length :=
    ⟨List.replicate _ 0, List.length_replicate⟩
  have room : (0 : ℕ) + written.length ≤ (buf.drop headerSize).length := by
    rw [List.length_drop]
    omega
  have encodes : (encodeWith header body buf).1 = .ok (headerSize + (0 + written.length)) := by
    rw [encodeWith, header.encodeInto_eq (by omega)]
    simp only [drop_wire]
    rw [writes ⟨buf.drop headerSize, 0⟩ room]
  rw [transmits.encodes buf (by omega)] at encodes
  have whole := Except.ok.inj encodes
  omega

end Local

namespace NormalizedMessage

open Encoder

/-- The body of every message is written locally. -/
theorem local_body (m : NormalizedMessage) :
    ∃ body, m.encodeInto = encodeWith m.header body ∧ Local body := by
  have word : ∀ {bytes : List UInt8} {rest : BufWriter Error Unit}, Local rest →
      Local (do put tooShort bytes; rest) := fun rest => (Local.put _ _).bind fun _ => rest
  have str : ∀ {s : String} {rest : BufWriter Error Unit}, Local rest →
      Local (do putStr s; rest) := fun rest => (local_putStr _).bind fun _ => rest
  have levels : ∀ bids asks, Local (do putLevels bids; putLevels asks) := fun bids asks =>
    (local_putLevels bids).bind fun _ => local_putLevels asks
  cases m with
  | instrumentDefinition m =>
    exact ⟨_, rfl, str (str (str (word (word (word (word (word (word (word (.put _ _))))))))))⟩
  | tradingStatus m => exact ⟨_, rfl, str (.put _ _)⟩
  | bookSnapshot m => exact ⟨_, rfl, str (word (word (word (levels _ _))))⟩
  | bookDelta m => exact ⟨_, rfl, str (word (word (word (word (word (levels _ _))))))⟩
  | bestBidOffer m =>
    exact ⟨_, rfl, str (word (word (word (word (word (word (.put _ _)))))))⟩
  | trade m =>
    exact ⟨_, rfl, str (word (word (word (word (word (word (word (.put _ _))))))))⟩
  | markPrice m => exact ⟨_, rfl, str (word (word (.put _ _)))⟩
  | fundingRate m => exact ⟨_, rfl, str (word (word (.put _ _)))⟩
  | liquidation m =>
    exact ⟨_, rfl, str (word (word (word (word (word (word (.put _ _)))))))⟩
  | openInterest m => exact ⟨_, rfl, str (word (.put _ _))⟩
  | accountUpdate m | orderUpdate m | heartbeat m => exact ⟨pure (), rfl, .pure ()⟩
  | feedStatus m => exact ⟨_, rfl, .put _ _⟩
  | gapDetected m => exact ⟨_, rfl, str (word (.put _ _))⟩
  | bookStale m => exact ⟨_, rfl, str (.put _ _)⟩
  | bookRecovered m => exact ⟨_, rfl, str (.put _ _)⟩

theorem length_encodeInto (m : NormalizedMessage) (buf : List UInt8) :
    (m.encodeInto buf).2.length = buf.length := by
  obtain ⟨body, own, here⟩ := m.local_body
  rw [own]
  exact length_encodeWith here m.header buf

private theorem encoded_eq {m : NormalizedMessage} {bytes buf encoded : List UInt8} {len : ℕ}
    (transmits : Transmits m.header m.encodeInto fromBytes m bytes)
    (encodes : m.encodeInto buf = (.ok len, encoded)) :
    len = bytes.length ∧ bytes.length ≤ buf.length ∧
      encoded = bytes ++ buf.drop bytes.length := by
  obtain ⟨body, own, here⟩ := m.local_body
  rw [own] at transmits encodes
  exact encodeWith_eq here transmits encodes

theorem length_of_writes {m : NormalizedMessage} {bytes written : List UInt8}
    {body : BufWriter Error Unit}
    (transmits : Transmits m.header m.encodeInto fromBytes m bytes)
    (own : m.encodeInto = encodeWith m.header body) (writes : Writes body written) :
    bytes.length = headerSize + written.length := by
  rw [own] at transmits
  exact length_of_body transmits writes

/-- An encoding succeeds only if every length fits its prefix. -/
theorem needs_body (m : NormalizedMessage) : ∃ body, m.encodeInto = encodeWith m.header body ∧
    Needs body ((∀ s ∈ m.strings, s.utf8ByteSize ≤ u16Max) ∧
      ∀ levels ∈ m.levelLists, levels.length ≤ u32Max) := by
  have word : ∀ {bytes : List UInt8} {rest : BufWriter Error Unit} {P : Prop}, Needs rest P →
      Needs (do put tooShort bytes; rest) P := fun rest =>
    ((Needs.nothing _).bind fun _ => rest).mono And.right
  have symbol : ∀ (s : String) (rest : BufWriter Error Unit),
      Needs (do putStr s; rest) (s.utf8ByteSize ≤ u16Max) := fun s rest =>
    ((needs_putStr s).bind fun _ => Needs.nothing rest).mono And.left
  have levels : ∀ bids asks, Needs (do putLevels bids; putLevels asks)
      (bids.length ≤ u32Max ∧ asks.length ≤ u32Max) := fun bids asks =>
    (needs_putLevels bids).bind fun _ => needs_putLevels asks
  cases m with
  | instrumentDefinition m =>
    refine ⟨_, rfl, ((needs_putStr m.symbol).bind fun _ => (needs_putStr m.baseAsset).bind fun _ =>
      symbol m.quoteAsset _).mono fun needs => ?_⟩
    simpa [strings, levelLists] using needs
  | bookSnapshot m =>
    refine ⟨_, rfl, ((needs_putStr m.symbol).bind fun _ => word (word (word
      (levels m.bids m.asks)))).mono fun needs => ?_⟩
    simpa [strings, levelLists] using needs
  | bookDelta m =>
    refine ⟨_, rfl, ((needs_putStr m.symbol).bind fun _ => word (word (word (word (word
      (levels m.bids m.asks)))))).mono fun needs => ?_⟩
    simpa [strings, levelLists] using needs
  | accountUpdate m | orderUpdate m | heartbeat m =>
    exact ⟨pure (), rfl, (Needs.nothing _).mono (by simp [strings, levelLists])⟩
  | feedStatus m => exact ⟨_, rfl, (Needs.nothing _).mono (by simp [strings, levelLists])⟩
  | _ => exact ⟨_, rfl, (symbol _ _).mono (by simp [strings, levelLists])⟩

/-- What has been encoded behind its own type is well formed. -/
theorem wellFormed_of_encodeInto {m : NormalizedMessage} {buf encoded : List UInt8} {len : ℕ}
    (announced : m.header.messageType = m.messageType)
    (encodes : m.encodeInto buf = (.ok len, encoded)) : m.WellFormed := by
  obtain ⟨body, own, needs⟩ := m.needs_body
  rw [own, encodeWith] at encodes
  split at encodes
  · cases encodes
  · split at encodes
    · cases encodes
    · next ran =>
      obtain ⟨strings, levels⟩ := needs _ _ _ ran
      exact ⟨announced, strings, levels⟩

/-- Whatever a successful encoding of a well-formed message reports to have written decodes to the
message. -/
theorem fromBytes_of_encodeInto {m : NormalizedMessage} (wellFormed : m.WellFormed)
    {buf encoded : List UInt8} {len : ℕ} (encodes : m.encodeInto buf = (.ok len, encoded)) :
    fromBytes (encoded.take len) = .ok m := by
  obtain ⟨bytes, transmits⟩ := transmits wellFormed
  obtain ⟨rfl, -, rfl⟩ := encoded_eq transmits encodes
  have decoded := transmits.decodes []
  rw [List.append_nil] at decoded
  rwa [List.take_left]

/-- A decoded message has the type that its header announces. -/
theorem messageType_of_fromBytes {header : MessageHeader} {fragment : List UInt8}
    {m : NormalizedMessage} (front : header.wire <+: fragment)
    (decodes : fromBytes fragment = .ok m) :
    m.messageType = header.messageType := by
  obtain ⟨rest, rfl⟩ := front
  rw [fromBytes_of_header (header.decode_wire rest)] at decodes
  have wrapped : ∀ {α : Type} (result : Except Error α) (wrap : α → NormalizedMessage)
      (kind : MessageType), (∀ a, (wrap a).messageType = kind) → result.map wrap = .ok m →
      m.messageType = kind := by
    intro α result wrap kind always ran
    cases result with
    | error e => cases ran
    | ok a =>
      cases ran
      exact always a
  cases kind : header.messageType with
  | bookChecksum =>
    rw [kind] at decodes
    cases decodes
  | _ =>
    rw [kind] at decodes
    exact wrapped _ _ _ (fun _ => rfl) decodes

/-- A buffer takes a well-formed message exactly if it has room for all its bytes; one that has not
is refused with an error, and keeps its length. -/
theorem encodeInto_ok_iff {m : NormalizedMessage} (wellFormed : m.WellFormed) :
    ∃ size, ∀ buf : List UInt8,
      (∃ encoded, m.encodeInto buf = (.ok size, encoded) ∧ encoded.drop size = buf.drop size ∧
        fromBytes (encoded.take size) = .ok m) ∧ size ≤ buf.length ∨
      (∃ e, (m.encodeInto buf).1 = .error e) ∧ (m.encodeInto buf).2.length = buf.length ∧
        buf.length < size := by
  obtain ⟨bytes, transmits⟩ := transmits wellFormed
  refine ⟨bytes.length, fun buf => ?_⟩
  cases ran : m.encodeInto buf with | mk result encoded =>
  cases result with
  | ok len =>
    have decoded := fromBytes_of_encodeInto wellFormed ran
    obtain ⟨rfl, fits, rfl⟩ := encoded_eq transmits ran
    exact .inl ⟨⟨_, rfl, List.drop_left, decoded⟩, fits⟩
  | error e =>
    have kept := m.length_encodeInto buf
    rw [ran] at kept
    refine .inr ⟨⟨e, rfl⟩, kept, ?_⟩
    by_contra enough
    rw [transmits.encodes buf (Nat.not_lt.mp enough)] at ran
    cases ran

theorem encodeInto_ok_iff_oneBid :
    ∃ size, ∀ buf : List UInt8,
      (∃ encoded, oneBid.encodeInto buf = (.ok size, encoded) ∧
        encoded.drop size = buf.drop size ∧ fromBytes (encoded.take size) = .ok oneBid) ∧
          size ≤ buf.length ∨
      (∃ e, (oneBid.encodeInto buf).1 = .error e) ∧
        (oneBid.encodeInto buf).2.length = buf.length ∧ buf.length < size :=
  encodeInto_ok_iff ⟨rfl, by decide, by decide⟩

end NormalizedMessage

/-! ## Numbers of fragments -/

theorem NormalizedMessage.header_withPublishTs (m : NormalizedMessage) (publishTs : Int64) :
    (m.withPublishTs publishTs).header = m.header.withPublishTs publishTs := by
  cases m <;> rfl

/-- The sequence number of a fragment. -/
def seqOf (fragment : List UInt8) : Option UInt64 :=
  (MessageHeader.decode fragment).toOption.map (·.sequenceNumber)

theorem seqOf_of_header {header : MessageHeader} {fragment : List UInt8}
    (front : header.wire <+: fragment) : seqOf fragment = some header.sequenceNumber := by
  obtain ⟨rest, rfl⟩ := front
  rw [seqOf, header.decode_wire]
  rfl

end TradingConnectivity.ConnectorCore
