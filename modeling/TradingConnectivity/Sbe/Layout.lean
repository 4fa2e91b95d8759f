import TradingConnectivity.Sbe.Decoder

/-! # The layout of SBE frames

What the schema says about the bytes of a frame, without a decoder: the fields of each root block,
the groups of levels, the symbol, and the room that a block takes for an announced length.
-/

namespace TradingConnectivity.Sbe

open Codec
open Normalize.Sbe (DepthLevel)

/-! ## Blocks -/

/-- How long a block is, given its announced length and the length of its known fields. -/
abbrev Room := ℕ → ℕ → ℕ → Prop

/-- A block is as long as announced and holds its known fields. -/
def Room.announced : Room := fun declared known actual => known ≤ declared ∧ actual = declared

/-- A block is as long as announced, or as its known fields if that is longer. -/
def Room.reached : Room := fun declared known actual => actual = max declared known

theorem Room.announced.reached {declared known actual : ℕ}
    (room : Room.announced declared known actual) : Room.reached declared known actual :=
  room.2.trans (Nat.max_eq_left room.1).symm

variable (room : Room)

/-- Known fields and any bytes behind them. -/
def Block (declared : ℕ) (known bytes : List UInt8) : Prop :=
  ∃ extension, bytes = known ++ extension ∧ room declared known.length bytes.length

/-! ## Groups and strings -/

def levelBytes (lvl : DepthLevel) : List UInt8 :=
  int64Bytes lvl.price.mantissa ++ int64Bytes lvl.quantity.mantissa

@[simp] theorem length_levelBytes (lvl : DepthLevel) : (levelBytes lvl).length = 16 := by
  simp [levelBytes]

/-- The length of an entry, the number of entries and the entries. -/
def Group : Format (List DepthLevel) := fun levels bytes =>
  ∃ (entryLength : UInt16) (count : UInt8) (entries : List (List UInt8)),
    levels.length = count.toNat ∧
    List.Forall₂ (fun lvl entry => Block room entryLength.toNat (levelBytes lvl) entry)
      levels entries ∧
    bytes = uint16Bytes entryLength ++ ([count] ++ entries.flatten)

def VarString : Format String := fun s bytes =>
  ∃ length : UInt16, s.utf8ByteSize = length.toNat ∧ bytes = uint16Bytes length ++ strBytes s

/-! ## Messages -/

namespace SbeMessage

def template : SbeMessage → TemplateId
  | trade _ => .tradesStream
  | bbo _ => .bestBidAsk
  | depthSnapshot _ => .depthSnapshot
  | depthDiff _ => .depthDiff

def symbol : SbeMessage → String
  | trade ev => ev.symbol
  | bbo ev => ev.symbol
  | depthSnapshot ev => ev.symbol
  | depthDiff ev => ev.symbol

end SbeMessage

/-- The fixed fields of the root block. -/
def Root : Format SbeMessage
  | .trade ev, bytes => ∃ aggressor maker : UInt8,
      aggressorFromU8 aggressor = ev.aggressorSide ∧
      decide (maker ≠ 0) = ev.isBuyerMarketMaker ∧
      bytes = int64Bytes ev.eventTime ++ (int64Bytes ev.transactTime ++ (int64Bytes ev.tradeId ++
        (int64Bytes ev.price.mantissa ++ (int64Bytes ev.quantity.mantissa ++
          (int64Bytes ev.buyerOrderId ++ (int64Bytes ev.sellerOrderId ++ [aggressor, maker]))))))
  | .bbo ev, bytes => bytes = int64Bytes ev.eventTime ++ (int64Bytes ev.transactTime ++
      (int64Bytes ev.bestBidPrice.mantissa ++ (int64Bytes ev.bestBidQty.mantissa ++
        (int64Bytes ev.bestAskPrice.mantissa ++ int64Bytes ev.bestAskQty.mantissa))))
  | .depthSnapshot ev, bytes => bytes = int64Bytes ev.eventTime ++ int64Bytes ev.lastUpdateId
  | .depthDiff ev, bytes => bytes = int64Bytes ev.eventTime ++ (int64Bytes ev.transactTime ++
      (int64Bytes ev.firstUpdateId ++ (int64Bytes ev.finalUpdateId ++
        int64Bytes ev.prevFinalUpdateId)))

/-- The groups behind the root block. -/
def Groups : Format SbeMessage
  | .trade _, bytes => bytes = []
  | .bbo _, bytes => bytes = []
  | .depthSnapshot ev, bytes => ∃ bids asks, Group room ev.bids bids ∧ Group room ev.asks asks ∧
      bytes = bids ++ asks
  | .depthDiff ev, bytes => ∃ bids asks, Group room ev.bids bids ∧ Group room ev.asks asks ∧
      bytes = bids ++ asks

/-- Root block, groups and symbol. -/
def Body (blockLength : ℕ) : Format SbeMessage := fun msg bytes =>
  ∃ fields root groups symbol, Root msg fields ∧ Block room blockLength fields root ∧
    Groups room msg groups ∧ VarString msg.symbol symbol ∧ bytes = root ++ (groups ++ symbol)

/-! ## Frames -/

def SbeHeader.bytes (hdr : SbeHeader) : List UInt8 :=
  uint16Bytes hdr.blockLength ++ (uint16Bytes hdr.templateId ++
    (uint16Bytes hdr.schemaId ++ uint16Bytes hdr.version))

/-- A header of this schema that names the template of the message, its body, and any bytes behind
it. -/
def Frame : Format SbeMessage := fun msg buf =>
  ∃ (hdr : SbeHeader) (body trailing : List UInt8), hdr.schemaId = spotSchemaId ∧
    hdr.version ≤ spotSchemaVersionMax ∧ hdr.templateId = msg.template.asU16 ∧
    Body room hdr.blockLength.toNat msg body ∧ buf = hdr.bytes ++ (body ++ trailing)

end TradingConnectivity.Sbe
