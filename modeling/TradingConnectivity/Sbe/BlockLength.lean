import TradingConnectivity.Sbe.Frames

/-! # Announced lengths

A frame laid out as the schema says is decoded to its message, whatever fields a newer schema has
added to its blocks. A length that is too small for the known fields is not rejected: the decoder
reads them all the same, out of what follows the block.
-/

namespace TradingConnectivity.Sbe

open Codec
open Normalize.Sbe (DepthLevel)

/-! ## Extended frames -/

section Mono

variable {room other : Room}

theorem Block.mono (weaker : ∀ declared known actual, room declared known actual →
    other declared known actual) {declared : ℕ} {known bytes : List UInt8}
    (block : Block room declared known bytes) : Block other declared known bytes := by
  obtain ⟨extension, split, size⟩ := block
  exact ⟨extension, split, weaker _ _ _ size⟩

theorem Group.mono (weaker : ∀ declared known actual, room declared known actual →
    other declared known actual) {levels : List DepthLevel} {bytes : List UInt8}
    (group : Group room levels bytes) : Group other levels bytes := by
  obtain ⟨entryLength, count, entries, length, denote, split⟩ := group
  exact ⟨entryLength, count, entries, length, denote.imp fun _ _ => Block.mono weaker, split⟩

theorem Groups.mono (weaker : ∀ declared known actual, room declared known actual →
    other declared known actual) {msg : SbeMessage} {bytes : List UInt8}
    (groups : Groups room msg bytes) : Groups other msg bytes := by
  cases msg with
  | trade ev => exact groups
  | bbo ev => exact groups
  | depthSnapshot ev =>
    obtain ⟨bids, asks, first, second, split⟩ := groups
    exact ⟨bids, asks, first.mono weaker, second.mono weaker, split⟩
  | depthDiff ev =>
    obtain ⟨bids, asks, first, second, split⟩ := groups
    exact ⟨bids, asks, first.mono weaker, second.mono weaker, split⟩

theorem Frame.mono (weaker : ∀ declared known actual, room declared known actual →
    other declared known actual) {msg : SbeMessage} {buf : List UInt8}
    (frame : Frame room msg buf) : Frame other msg buf := by
  obtain ⟨hdr, body, trailing, schema, version, named, denotes, split⟩ := frame
  obtain ⟨fields, root, groups, symbol, known, block, grouped, string, whole⟩ := denotes
  exact ⟨hdr, body, trailing, schema, version, named, ⟨fields, root, groups, symbol, known,
    block.mono weaker, grouped.mono weaker, string, whole⟩, split⟩

end Mono

/-- Any length from that of the known fields on can be announced. -/
private theorem exists_block {declared : ℕ} {known : List UInt8} (room : known.length ≤ declared) :
    ∃ bytes, Block Room.announced declared known bytes := by
  refine ⟨known ++ List.replicate (declared - known.length) 0, _, rfl, room, ?_⟩
  rw [List.length_append, List.length_replicate]
  omega

private theorem exists_group {levels : List DepthLevel} (few : levels.length < 256)
    {entryLength : UInt16}
    (room : 16 ≤ entryLength.toNat) : ∃ bytes, Group Room.announced levels bytes := by
  have entries : ∃ entries, List.Forall₂
      (fun lvl entry => Block Room.announced entryLength.toNat (levelBytes lvl) entry)
      levels entries := by
    clear few
    induction levels with
    | nil => exact ⟨[], .nil⟩
    | cons lvl rest ih =>
      obtain ⟨entry, block⟩ : ∃ entry,
          Block Room.announced entryLength.toNat (levelBytes lvl) entry :=
        exists_block (by simpa using room)
      obtain ⟨entries, blocks⟩ := ih
      exact ⟨entry :: entries, .cons block blocks⟩
  obtain ⟨entries, blocks⟩ := entries
  exact ⟨_, entryLength, UInt8.ofNat levels.length, entries,
    (UInt8.toNat_ofNat_of_lt' few).symm, blocks, rfl⟩

private theorem exists_root (msg : SbeMessage) : ∃ fields, Root msg fields := by
  cases msg with
  | trade ev =>
    have side : ∃ v, aggressorFromU8 v = ev.aggressorSide :=
      ⟨aggressorAsU8 ev.aggressorSide, by cases ev.aggressorSide <;> rfl⟩
    have flag : ∃ v : UInt8, decide (v ≠ 0) = ev.isBuyerMarketMaker :=
      ⟨if ev.isBuyerMarketMaker then 1 else 0, by cases ev.isBuyerMarketMaker <;> rfl⟩
    obtain ⟨aggressor, side⟩ := side
    obtain ⟨maker, flag⟩ := flag
    exact ⟨_, aggressor, maker, side, flag, rfl⟩
  | bbo ev => exact ⟨_, rfl⟩
  | depthSnapshot ev => exact ⟨_, rfl⟩
  | depthDiff ev => exact ⟨_, rfl⟩

/-- The sides of a depth message. -/
def SbeMessage.sides : SbeMessage → List (List DepthLevel)
  | trade _ => []
  | bbo _ => []
  | depthSnapshot ev => [ev.bids, ev.asks]
  | depthDiff ev => [ev.bids, ev.asks]

/-- A message with at most 255 levels a side and 65535 bytes in its symbol has frames of every
length that holds the known fields. -/
theorem exists_frame {msg : SbeMessage} (few : ∀ side ∈ msg.sides, side.length < 256)
    (short : msg.symbol.utf8ByteSize < 65536) {blockLength entryLength : UInt16}
    (rootRoom : ∀ fields, Root msg fields → fields.length ≤ blockLength.toNat)
    (entryRoom : 16 ≤ entryLength.toNat) :
    ∃ buf, Frame Room.announced msg buf ∧ uint16At buf 0 = blockLength := by
  obtain ⟨fields, known⟩ := exists_root msg
  obtain ⟨root, block⟩ := exists_block (rootRoom fields known)
  have groups : ∃ bytes, Groups Room.announced msg bytes := by
    cases msg with
    | trade ev => exact ⟨_, rfl⟩
    | bbo ev => exact ⟨_, rfl⟩
    | depthSnapshot ev =>
      obtain ⟨bids, bidGroup⟩ := exists_group (few ev.bids (by simp [SbeMessage.sides])) entryRoom
      obtain ⟨asks, askGroup⟩ := exists_group (few ev.asks (by simp [SbeMessage.sides])) entryRoom
      exact ⟨_, bids, asks, bidGroup, askGroup, rfl⟩
    | depthDiff ev =>
      obtain ⟨bids, bidGroup⟩ := exists_group (few ev.bids (by simp [SbeMessage.sides])) entryRoom
      obtain ⟨asks, askGroup⟩ := exists_group (few ev.asks (by simp [SbeMessage.sides])) entryRoom
      exact ⟨_, bids, asks, bidGroup, askGroup, rfl⟩
  obtain ⟨groups, grouped⟩ := groups
  have version : (0 : UInt16) ≤ spotSchemaVersionMax := by decide
  refine ⟨_, ⟨⟨blockLength, msg.template.asU16, spotSchemaId, 0⟩, _, [], rfl, version, rfl,
    ⟨fields, root, groups, _, known, block, grouped, ⟨UInt16.ofNat msg.symbol.utf8ByteSize,
      (UInt16.toNat_ofNat_of_lt' short).symm, rfl⟩, rfl⟩, rfl⟩, ?_⟩
  exact ofNat_ofLeBytes_uint16Bytes blockLength

/-- Decoding inverts the layout of the schema, with any extension of the blocks. -/
theorem decodeMessage_announced {buf : List UInt8} {msg : SbeMessage}
    (frame : Frame Room.announced msg buf) : decodeMessage buf = .ok msg :=
  decodeMessage_of_frame (frame.mono fun _ _ _ => Room.announced.reached)

def snapshot : DepthSnapshotEvent where
  eventTime := 1
  lastUpdateId := 2
  symbol := "BTC"
  bids := [⟨⟨3⟩, ⟨4⟩⟩, ⟨⟨5⟩, ⟨6⟩⟩]
  asks := []

/-- Two bytes more in the root block, one more in each entry, and one behind the symbol. -/
def extendedSnapshot : List UInt8 :=
  [18, 0, 2, 0, 3, 0, 1, 0] ++ (int64Bytes 1 ++ int64Bytes 2 ++ [7, 7]) ++
    ([17, 0, 2] ++ (int64Bytes 3 ++ int64Bytes 4 ++ [8]) ++
      (int64Bytes 5 ++ int64Bytes 6 ++ [9])) ++ [17, 0, 0] ++ ([3, 0] ++ strBytes "BTC") ++ [10]

theorem decodeMessage_announced_snapshot :
    decodeMessage extendedSnapshot = .ok (.depthSnapshot snapshot) := by
  have entry (price quantity : Int64) (byte : UInt8) : Block Room.announced (17 : UInt16).toNat
      (levelBytes ⟨⟨price⟩, ⟨quantity⟩⟩) (int64Bytes price ++ int64Bytes quantity ++ [byte]) :=
    ⟨[byte], rfl, by simp [Room.announced]⟩
  have bids : Group Room.announced snapshot.bids
      ([17, 0, 2] ++ (int64Bytes 3 ++ int64Bytes 4 ++ [8]) ++
        (int64Bytes 5 ++ int64Bytes 6 ++ [9])) :=
    ⟨17, 2, _, rfl, .cons (entry 3 4 8) (.cons (entry 5 6 9) .nil), rfl⟩
  have asks : Group Room.announced snapshot.asks [17, 0, 0] := ⟨17, 0, [], rfl, .nil, rfl⟩
  have root : Block Room.announced (18 : UInt16).toNat (int64Bytes 1 ++ int64Bytes 2)
      (int64Bytes 1 ++ int64Bytes 2 ++ [7, 7]) := ⟨[7, 7], rfl, by simp [Room.announced]⟩
  exact decodeMessage_announced ⟨⟨18, 2, 3, 1⟩, _, [10], rfl, by decide, rfl,
    ⟨_, _, _, _, rfl, root, ⟨_, _, bids, asks, rfl⟩, ⟨3, by decide, rfl⟩, rfl⟩, rfl⟩

/-! ## Undersized lengths -/

/-- The decoder succeeds exactly on the frames whose blocks are as long as announced or, where that
is longer, as their known fields. -/
theorem decodeMessage_ok_iff (buf : List UInt8) (msg : SbeMessage) :
    decodeMessage buf = .ok msg ↔ Frame Room.reached msg buf :=
  ⟨frame_of_decodeMessage, decodeMessage_of_frame⟩

private theorem uint16At_of_drop {buf rest : List UInt8} {pos : ℕ} {v : UInt16}
    (unread : buf.drop pos = uint16Bytes v ++ rest) : uint16At buf pos = v := by
  have two : (uint16Bytes v ++ rest).take 2 = uint16Bytes v :=
    List.take_left' (length_uint16Bytes v)
  rw [uint16At, ConnectorCore.wordAt, unread, two, ofNat_ofLeBytes_uint16Bytes]

/-- The length of the fixed fields of a root block. -/
def TemplateId.rootLength : TemplateId → ℕ
  | tradesStream => 58
  | bestBidAsk => 48
  | depthSnapshot => 16
  | depthDiff => 40

private theorem length_root {msg : SbeMessage} {fields : List UInt8} (root : Root msg fields) :
    fields.length = msg.template.rootLength := by
  cases msg with
  | trade ev =>
    obtain ⟨aggressor, maker, -, -, rfl⟩ := root
    simp [SbeMessage.template, TemplateId.rootLength]
  | bbo ev =>
    obtain rfl : fields = _ := root
    simp [SbeMessage.template, TemplateId.rootLength]
  | depthSnapshot ev =>
    obtain rfl : fields = _ := root
    simp [SbeMessage.template, TemplateId.rootLength]
  | depthDiff ev =>
    obtain rfl : fields = _ := root
    simp [SbeMessage.template, TemplateId.rootLength]

/-- The groups in a buffer from a position on announce entries that hold a level, those at least
that have any. -/
def GroupsSized (buf : List UInt8) : ℕ → List (List DepthLevel) → Prop
  | _, [] => True
  | pos, side :: rest => (side ≠ [] → 16 ≤ (uint16At buf pos).toNat) ∧
      GroupsSized buf (pos + 3 + side.length * (uint16At buf pos).toNat) rest

/-- A buffer announces a root block that holds the fixed fields of the message, and behind it
groups whose entries hold a level. -/
def Sized (msg : SbeMessage) (buf : List UInt8) : Prop :=
  msg.template.rootLength ≤ (uint16At buf 0).toNat ∧
    GroupsSized buf (sbeHeaderSize + (uint16At buf 0).toNat) msg.sides

/-- A group announces its entry length first, and is as long as its entries if that suffices. -/
theorem Group.announced_iff {levels : List DepthLevel} {bytes : List UInt8}
    (group : Group Room.reached levels bytes) : ∃ (entryLength : UInt16) (rest : List UInt8),
      bytes = uint16Bytes entryLength ++ rest ∧
      (Group Room.announced levels bytes ↔ (levels ≠ [] → 16 ≤ entryLength.toNat)) ∧
      ((levels ≠ [] → 16 ≤ entryLength.toNat) →
        bytes.length = 3 + levels.length * entryLength.toNat) := by
  obtain ⟨entryLength, count, entries, length, denote, rfl⟩ := group
  have entry {lvl : DepthLevel} {bytes : List UInt8} (enough : 16 ≤ entryLength.toNat)
      (block : Block Room.reached entryLength.toNat (levelBytes lvl) bytes) :
      Block Room.announced entryLength.toNat (levelBytes lvl) bytes := by
    obtain ⟨extension, split, size⟩ := block
    rw [length_levelBytes] at size
    refine ⟨extension, split, by rwa [length_levelBytes], ?_⟩
    exact size.trans (Nat.max_eq_left enough)
  refine ⟨entryLength, _, rfl, ⟨?_, ?_⟩, ?_⟩
  · rintro ⟨entryLength', count', entries', -, denote', same⟩ some
    obtain ⟨lvl, rest, rfl⟩ := List.exists_cons_of_ne_nil some
    have own :=
      @uint16At_of_drop (uint16Bytes entryLength ++ ([count] ++ entries.flatten)) _ 0 _ rfl
    have equal : entryLength = entryLength' := own.symm.trans (@uint16At_of_drop _ _ 0 _ same)
    cases denote' with
    | cons block blocks =>
      obtain ⟨extension, -, enough, -⟩ := block
      rw [length_levelBytes] at enough
      exact equal ▸ enough
  · intro enough
    refine ⟨entryLength, count, entries, length, ?_, rfl⟩
    cases denote with
    | nil => exact .nil
    | cons block blocks =>
      have room := enough (List.cons_ne_nil _ _)
      exact .cons (entry room block) (blocks.imp fun _ _ => entry room)
  · intro enough
    have total : entries.flatten.length = levels.length * entryLength.toNat := by
      clear length
      induction denote with
      | nil => simp
      | cons block blocks ih =>
        have room := enough (List.cons_ne_nil _ _)
        obtain ⟨-, -, -, size⟩ := entry room block
        rw [List.flatten_cons, List.length_append, size, ih fun _ => room, List.length_cons,
          Nat.succ_mul, Nat.add_comm]
    simp [total]
    omega

/-- Groups that stand in a buffer are sized exactly if each is as announced. -/
theorem groupsSized_iff {sides : List (List DepthLevel)} {blocks : List (List UInt8)}
    (groups : List.Forall₂ (Group Room.reached) sides blocks) {buf rest : List UInt8} {pos : ℕ}
    (unread : buf.drop pos = blocks.flatten ++ rest) :
    GroupsSized buf pos sides ↔ List.Forall₂ (Group Room.announced) sides blocks := by
  induction groups generalizing pos with
  | nil => exact iff_of_true trivial .nil
  | @cons side block sides blocks group groups ih =>
    obtain ⟨entryLength, tail, split, announced, length⟩ := group.announced_iff
    rw [List.flatten_cons, List.append_assoc] at unread
    have first : uint16At buf pos = entryLength := by
      rw [split, List.append_assoc] at unread
      exact uint16At_of_drop unread
    rw [GroupsSized, List.forall₂_cons, first, announced]
    refine and_congr_right fun enough => ih ?_
    rw [Nat.add_assoc, ← length enough, ← List.drop_drop, unread, List.drop_left]

private theorem groups_iff {room : Room} {msg : SbeMessage} {bytes : List UInt8} :
    Groups room msg bytes ↔
      ∃ blocks, List.Forall₂ (Group room) msg.sides blocks ∧ bytes = blocks.flatten := by
  have two {bids asks : List DepthLevel} :
      (∃ first second, Group room bids first ∧ Group room asks second ∧ bytes = first ++ second) ↔
        ∃ blocks, List.Forall₂ (Group room) [bids, asks] blocks ∧ bytes = blocks.flatten := by
    constructor
    · rintro ⟨first, second, bidGroup, askGroup, rfl⟩
      exact ⟨[first, second], .cons bidGroup (.cons askGroup .nil), by simp⟩
    · rintro ⟨blocks, groups, rfl⟩
      cases groups with
      | cons bidGroup groups =>
        cases groups with
        | cons askGroup groups =>
          cases groups with
          | nil => exact ⟨_, _, bidGroup, askGroup, by simp⟩
  have none : bytes = [] ↔
      ∃ blocks, List.Forall₂ (Group room) [] blocks ∧ bytes = blocks.flatten := by
    simp only [List.forall₂_nil_left_iff, exists_eq_left, List.flatten_nil]
  cases msg with
  | trade ev => exact none
  | bbo ev => exact none
  | depthSnapshot ev => exact two
  | depthDiff ev => exact two

/-- What a frame announces is enough exactly if none of its blocks had to be stretched. -/
theorem Frame.announced_iff {msg : SbeMessage} {buf : List UInt8}
    (frame : Frame Room.reached msg buf) : Frame Room.announced msg buf ↔ Sized msg buf := by
  have front {hdr : SbeHeader} {rest : List UInt8} :
      uint16At (hdr.bytes ++ rest) 0 = hdr.blockLength := by
    exact @uint16At_of_drop _ _ 0 _ (by rw [List.drop_zero, SbeHeader.bytes, List.append_assoc])
  have behind {hdr : SbeHeader} {root rest : List UInt8}
      (length : root.length = hdr.blockLength.toNat) :
      (hdr.bytes ++ (root ++ rest)).drop (sbeHeaderSize + hdr.blockLength.toNat) = rest := by
    rw [← hdr.length_bytes, ← length, ← List.drop_drop, List.drop_left, List.drop_left]
  constructor
  · rintro ⟨hdr, body, trailing, -, -, -, denotes, rfl⟩
    obtain ⟨fields, root, groups, symbol, known, ⟨extension, -, room⟩, grouped, -, rfl⟩ := denotes
    obtain ⟨blocks, announced, rfl⟩ := groups_iff.mp grouped
    have reached := announced.imp fun _ _ group =>
      Group.mono (fun _ _ _ => Room.announced.reached) group
    rw [Sized, front, ← length_root known]
    have unread := @behind hdr root (blocks.flatten ++ (symbol ++ trailing)) room.2
    simp only [List.append_assoc]
    exact ⟨room.1, (groupsSized_iff reached unread).mpr announced⟩
  · rintro ⟨enough, sized⟩
    obtain ⟨hdr, body, trailing, schema, version, named, denotes, rfl⟩ := frame
    obtain ⟨fields, root, groups, symbol, known, ⟨extension, split, room⟩, grouped, string, rfl⟩ :=
      denotes
    obtain ⟨blocks, reached, rfl⟩ := groups_iff.mp grouped
    rw [front, ← length_root known] at enough
    have length : root.length = hdr.blockLength.toNat := room.trans (Nat.max_eq_left enough)
    rw [front] at sized
    have unread := @behind hdr root (blocks.flatten ++ (symbol ++ trailing)) length
    simp only [List.append_assoc] at sized
    have announced := (groupsSized_iff reached unread).mp sized
    exact ⟨hdr, _, trailing, schema, version, named, ⟨fields, root, _, symbol, known,
      ⟨extension, split, enough, length⟩, groups_iff.mpr ⟨blocks, announced, rfl⟩, string, rfl⟩,
        rfl⟩

/-- The decoder accepts only buffers that announce enough exactly where no frame has to be stretched
to hold its known fields. -/
theorem undersized_rejected_iff (buf : List UInt8) :
    (∀ msg, decodeMessage buf = .ok msg → Sized msg buf) ↔
      ∀ msg, Frame Room.reached msg buf → Frame Room.announced msg buf := by
  constructor
  · intro rejected msg frame
    exact frame.announced_iff.mpr (rejected msg (decodeMessage_of_frame frame))
  · intro announced msg decoded
    have frame := (decodeMessage_ok_iff buf msg).mp decoded
    exact frame.announced_iff.mp (announced msg frame)

/-- A best bid and ask of a schema without the last field, in the root block of 40 bytes; the symbol
has eight characters. -/
def shortBbo : List UInt8 :=
  [40, 0, 1, 0, 3, 0, 0, 0] ++ (int64Bytes 1 ++ (int64Bytes 2 ++ (int64Bytes 3 ++ (int64Bytes 4 ++
    int64Bytes 5)))) ++ [8, 0, 65, 66, 67, 68, 69, 70, 0, 0]

/-- Its length and its first characters are taken for the quantity. -/
def misreadBbo : BboEvent where
  eventTime := 1
  transactTime := 2
  bestBidPrice := ⟨3⟩
  bestBidQty := ⟨4⟩
  bestAskPrice := ⟨5⟩
  bestAskQty := ⟨5063528411713044488⟩
  symbol := ""

/-- A root block that is announced too short is decoded. -/
theorem undersized_accepted :
    decodeMessage shortBbo = .ok (.bbo misreadBbo) ∧ ¬Sized (.bbo misreadBbo) shortBbo := by
  have quantity : int64Bytes 5063528411713044488 = [8, 0, 65, 66, 67, 68, 69, 70] := by decide
  have root : Root (.bbo misreadBbo) (int64Bytes 1 ++ (int64Bytes 2 ++ (int64Bytes 3 ++
      (int64Bytes 4 ++ (int64Bytes 5 ++ [8, 0, 65, 66, 67, 68, 69, 70]))))) := by
    rw [← quantity]
    rfl
  have frame : Frame Room.reached (.bbo misreadBbo) shortBbo :=
    ⟨⟨40, 1, 3, 0⟩, _, [], rfl, by decide, rfl, ⟨_, _, [], [0, 0], root,
      ⟨[], (List.append_nil _).symm, by simp [Room.reached]⟩, rfl, ⟨0, rfl, rfl⟩, rfl⟩, rfl⟩
  refine ⟨decodeMessage_of_frame frame, fun sized => ?_⟩
  exact absurd sized.1 (by decide)

end TradingConnectivity.Sbe
