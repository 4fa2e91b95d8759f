import TradingConnectivity.Codec.Reader
import TradingConnectivity.Gateway.Types

/-! # The order journal

An append-only write-ahead log of order lifecycle events. A record is a tag byte, a timestamp, the
payload length in two bytes and the payload; all integers are little-endian. Lengths are truncated
to their prefix, as the casts of the encoder do, so only a `Representable` entry reads back.
-/

namespace TradingConnectivity.Gateway

open Codec

inductive EntryTag
  | requested
  | acknowledged
  | filled
  | cancelled
  | rejected
  | expired
deriving DecidableEq, Repr

def EntryTag.toByte : EntryTag → UInt8
  | .requested => 1
  | .acknowledged => 2
  | .filled => 3
  | .cancelled => 4
  | .rejected => 5
  | .expired => 6

def EntryTag.tryFrom (v : UInt8) : Except UInt8 EntryTag :=
  if v = 1 then .ok .requested
  else if v = 2 then .ok .acknowledged
  else if v = 3 then .ok .filled
  else if v = 4 then .ok .cancelled
  else if v = 5 then .ok .rejected
  else if v = 6 then .ok .expired
  else .error v

@[simp] theorem EntryTag.tryFrom_toByte (tag : EntryTag) :
    EntryTag.tryFrom tag.toByte = .ok tag := by cases tag <;> rfl

/-- One logical event persisted in the journal. -/
inductive JournalEntry
  | orderRequested (timestampNs : Int64) (cloid : ClientOrderId) (request : OrderRequest)
  | orderAcknowledged (timestampNs : Int64) (cloid : ClientOrderId) (exchangeId : UInt64)
  | orderFilled (timestampNs : Int64) (cloid : ClientOrderId) (fillQty fillPrice : Int64)
      (isFinal : Bool)
  | orderCancelled (timestampNs : Int64) (cloid : ClientOrderId)
  | orderRejected (timestampNs : Int64) (cloid : ClientOrderId) (reason : String)
  | orderExpired (timestampNs : Int64) (cloid : ClientOrderId)
deriving DecidableEq, Repr

namespace JournalEntry

def timestampNs : JournalEntry → Int64
  | orderRequested timestampNs _ _ => timestampNs
  | orderAcknowledged timestampNs _ _ => timestampNs
  | orderFilled timestampNs _ _ _ _ => timestampNs
  | orderCancelled timestampNs _ => timestampNs
  | orderRejected timestampNs _ _ => timestampNs
  | orderExpired timestampNs _ => timestampNs

def cloid : JournalEntry → ClientOrderId
  | orderRequested _ cloid _ => cloid
  | orderAcknowledged _ cloid _ => cloid
  | orderFilled _ cloid _ _ _ => cloid
  | orderCancelled _ cloid => cloid
  | orderRejected _ cloid _ => cloid
  | orderExpired _ cloid => cloid

def tag : JournalEntry → EntryTag
  | orderRequested .. => .requested
  | orderAcknowledged .. => .acknowledged
  | orderFilled .. => .filled
  | orderCancelled .. => .cancelled
  | orderRejected .. => .rejected
  | orderExpired .. => .expired

end JournalEntry

/-! ## Encoder -/

namespace Encoder

def u8 (v : UInt8) : List UInt8 := [v]

def i64 (v : Int64) : List UInt8 := int64Bytes v

def u64 (v : UInt64) : List UInt8 := uint64Bytes v

/-- A 16-bit length, truncated as the cast does. -/
def u16 (n : ℕ) : List UInt8 := leBytes 2 n

def bool (v : Bool) : List UInt8 := u8 (if v then 1 else 0)

/-- A short string; the length is truncated to one byte. -/
def strU8 (s : String) : List UInt8 := u8 (UInt8.ofNat (strBytes s).length) ++ strBytes s

/-- A longer string; the length is truncated to two bytes. -/
def strU16 (s : String) : List UInt8 := u16 (strBytes s).length ++ strBytes s

def limitPrice : Option Int64 → List UInt8
  | none => u8 0
  | some p => u8 1 ++ i64 p

end Encoder

def encodePayload : JournalEntry → List UInt8
  | .orderRequested _ cloid request =>
      Encoder.strU8 cloid.asStr ++ Encoder.strU8 request.symbol ++
        Encoder.u8 request.side.toByte ++ Encoder.u8 request.orderType.toByte ++
        Encoder.u8 request.timeInForce.toByte ++ Encoder.i64 request.qty ++
        Encoder.limitPrice request.limitPrice
  | .orderAcknowledged _ cloid exchangeId =>
      Encoder.strU8 cloid.asStr ++ Encoder.u64 exchangeId
  | .orderFilled _ cloid fillQty fillPrice isFinal =>
      Encoder.strU8 cloid.asStr ++ Encoder.i64 fillQty ++ Encoder.i64 fillPrice ++
        Encoder.bool isFinal
  | .orderCancelled _ cloid => Encoder.strU8 cloid.asStr
  | .orderRejected _ cloid reason => Encoder.strU8 cloid.asStr ++ Encoder.strU16 reason
  | .orderExpired _ cloid => Encoder.strU8 cloid.asStr

def encodeEntry (entry : JournalEntry) : List UInt8 :=
  let payload := encodePayload entry
  Encoder.u8 entry.tag.toByte ++ Encoder.i64 entry.timestampNs ++ Encoder.u16 payload.length ++
    payload

/-! ## Decoder -/

namespace Decoder

def tooShort (cursor : Cursor) (n : ℕ) : Error :=
  .bufferTooShort (cursor.pos + n) cursor.buf.length

def need (n : ℕ) : Reader Error Unit := Codec.need tooShort n

def u8 : Reader Error UInt8 := do
  let n ← readLe tooShort 1
  return UInt8.ofNat n

def u64 : Reader Error UInt64 := do
  let n ← readLe tooShort 8
  return UInt64.ofNat n

def i64 : Reader Error Int64 := do
  let n ← readLe tooShort 8
  return (UInt64.ofNat n).toInt64

def u16 : Reader Error ℕ := readLe tooShort 2

def bool : Reader Error Bool := do
  let v ← u8
  return decide (v ≠ 0)

/-- The next `len` bytes as a string. -/
def str (len : ℕ) : Reader Error String := do
  need len
  let cursor ← get
  let bytes := (cursor.buf.drop cursor.pos).take len
  match ofStrBytes? bytes with
  | none => throw (.journalCorrupt cursor.pos (.utf8 bytes))
  | some s =>
      set { cursor with pos := cursor.pos + len }
      return s

def strU8 : Reader Error String := do
  let len ← u8
  str len.toNat

def strU16 : Reader Error String := do
  let len ← u16
  str len

def cloid : Reader Error ClientOrderId := do
  let s ← strU8
  return ⟨s⟩

/-- One byte of an enumeration, reported against the offset of the record. -/
def enumU8 {α : Type} (tryFrom : UInt8 → Except UInt8 α) (offset : ℕ)
    (bad : UInt8 → CorruptReason) : Reader Error α := do
  match tryFrom (← u8) with
  | .ok v => return v
  | .error v => throw (.journalCorrupt offset (bad v))

def limitPrice : Reader Error (Option Int64) := do
  if (← u8) ≠ 0 then
    let p ← i64
    return some p
  else
    return none

end Decoder

def decodePayload (offset : ℕ) (timestampNs : Int64) : EntryTag → Reader Error JournalEntry
  | .requested => do
      let cloid ← Decoder.cloid
      let symbol ← Decoder.strU8
      let side ← Decoder.enumU8 OrderSide.tryFrom offset .badSide
      let orderType ← Decoder.enumU8 OrderType.tryFrom offset .badOrderType
      let timeInForce ← Decoder.enumU8 TimeInForce.tryFrom offset .badTif
      let qty ← Decoder.i64
      let limitPrice ← Decoder.limitPrice
      return .orderRequested timestampNs cloid
        { symbol, side, orderType, qty, limitPrice, timeInForce }
  | .acknowledged => do
      let cloid ← Decoder.cloid
      let exchangeId ← Decoder.u64
      return .orderAcknowledged timestampNs cloid exchangeId
  | .filled => do
      let cloid ← Decoder.cloid
      let fillQty ← Decoder.i64
      let fillPrice ← Decoder.i64
      let isFinal ← Decoder.bool
      return .orderFilled timestampNs cloid fillQty fillPrice isFinal
  | .cancelled => do
      let cloid ← Decoder.cloid
      return .orderCancelled timestampNs cloid
  | .rejected => do
      let cloid ← Decoder.cloid
      let reason ← Decoder.strU16
      return .orderRejected timestampNs cloid reason
  | .expired => do
      let cloid ← Decoder.cloid
      return .orderExpired timestampNs cloid

def decodeHeader : Reader Error (UInt8 × Int64 × ℕ) := do
  let tagByte ← Decoder.u8
  let timestampNs ← Decoder.i64
  let payloadLen ← Decoder.u16
  return (tagByte, timestampNs, payloadLen)

/-- The record at an offset, and the offset of the next one. -/
def decodeOne (buf : List UInt8) (offset : ℕ) : Except Error (JournalEntry × ℕ) := do
  let ((tagByte, timestampNs, payloadLen), dec) ← decodeHeader ⟨buf, offset⟩
  match Decoder.need payloadLen dec with
  | .error _ => .error (.journalCorrupt offset (.payloadPastBuffer payloadLen))
  | .ok _ =>
      match EntryTag.tryFrom tagByte with
      | .error v => .error (.journalCorrupt offset (.unknownTag v))
      | .ok tag => do
          let payload := (buf.drop dec.pos).take payloadLen
          let (entry, _) ← decodePayload offset timestampNs tag ⟨payload, 0⟩
          return (entry, dec.pos + payloadLen)

/-- The loop of `decodeAll`. A record takes at least eleven bytes, so the buffer's length is more
fuel than the loop can use (`decodeLoop_fuel`). -/
def decodeLoop (buf : List UInt8) : ℕ → ℕ → Except Error (List JournalEntry)
  | 0, _ => .ok []
  | fuel + 1, pos =>
      if pos < buf.length then do
        let (entry, following) ← decodeOne buf pos
        let entries ← decodeLoop buf fuel following
        return entry :: entries
      else .ok []

/-- All entries of a contiguous byte slice. -/
def decodeAll (buf : List UInt8) : Except Error (List JournalEntry) :=
  decodeLoop buf buf.length 0

/-! ## Journal -/

/-- What the file system does during one append: everything that is to be written reaches the file,
or an error is returned after some of its bytes did. -/
inductive IoOutcome
  | written
  | failed (reached : ℕ) (message : String)
deriving DecidableEq, Repr

/-- The file writer is buffered: after a failed write the bytes that did not reach the file stay in
the buffer and are written first by the next append. It carries the outcomes of the appends to come;
past the end of the script every append is written. -/
inductive JournalWriter
  | file (contents buffered : List UInt8) (script : List IoOutcome)
  | memory (buf : List UInt8)
deriving DecidableEq, Repr

/-- The capacity of the file writer's buffer. -/
def bufCapacity : ℕ := 8192

/-- The file and the buffer when writing these bytes behind the buffered ones and flushing fails
after `reached` bytes. A full buffer is flushed before the bytes are taken, and bytes that do not
fit the buffer are written past it, so what is left of them is lost. -/
def failWrite (contents buffered bytes : List UInt8) (reached : ℕ) : List UInt8 × List UInt8 :=
  if bufCapacity < buffered.length + bytes.length ∧ reached < buffered.length then
    (contents ++ buffered.take reached, buffered.drop reached)
  else if bytes.length < bufCapacity then
    (contents ++ (buffered ++ bytes).take reached, (buffered ++ bytes).drop reached)
  else (contents ++ (buffered ++ bytes).take reached, [])

structure Journal where
  writer : JournalWriter
deriving DecidableEq, Repr

namespace Journal

def inMemory : Journal := ⟨.memory []⟩

/-- Open a journal on the bytes of its file, `none` when the file does not exist yet. -/
def openFile (file : Option (List UInt8)) (script : List IoOutcome) :
    Except Error (List JournalEntry × Journal) := do
  match file with
  | some bytes => do
      let recovered ← decodeAll bytes
      return (recovered, ⟨.file bytes [] script⟩)
  | none => return ([], ⟨.file [] [] script⟩)

/-- Encode an entry and write it to the journal immediately. -/
def append (journal : Journal) (entry : JournalEntry) : Except Error Unit × Journal :=
  let bytes := encodeEntry entry
  match journal.writer with
  | .memory buf => (.ok (), ⟨.memory (buf ++ bytes)⟩)
  | .file contents buffered [] => (.ok (), ⟨.file (contents ++ buffered ++ bytes) [] []⟩)
  | .file contents buffered (.written :: script) =>
      (.ok (), ⟨.file (contents ++ buffered ++ bytes) [] script⟩)
  | .file contents buffered (.failed reached message :: script) =>
      let (contents, buffered) := failWrite contents buffered bytes reached
      (.error (.io message), ⟨.file contents buffered script⟩)

/-- The bytes the journal holds. -/
def contents (journal : Journal) : List UInt8 :=
  match journal.writer with
  | .memory buf => buf
  | .file contents _ _ => contents

/-- No append to come fails, and none has left bytes behind. -/
def Reliable (journal : Journal) : Prop :=
  match journal.writer with
  | .memory _ => True
  | .file _ buffered script => buffered = [] ∧ ∀ outcome ∈ script, outcome = .written

/-- Every append to a reliable journal succeeds and leaves a reliable journal. -/
theorem append_reliable {journal : Journal} (reliable : journal.Reliable) (entry : JournalEntry) :
    ∃ after, journal.append entry = (.ok (), after) ∧ after.Reliable ∧
      after.contents = journal.contents ++ encodeEntry entry := by
  obtain ⟨writer⟩ := journal
  cases writer with
  | memory buf => exact ⟨⟨.memory (buf ++ encodeEntry entry)⟩, rfl, trivial, rfl⟩
  | file contents buffered script =>
    obtain ⟨rfl, reliable⟩ := reliable
    have written : contents ++ [] ++ encodeEntry entry = contents ++ encodeEntry entry := by
      rw [List.append_nil]
    cases script with
    | nil =>
      exact ⟨⟨.file (contents ++ [] ++ encodeEntry entry) [] []⟩, rfl, ⟨rfl, reliable⟩, written⟩
    | cons outcome script =>
      obtain rfl := reliable outcome List.mem_cons_self
      exact ⟨⟨.file (contents ++ [] ++ encodeEntry entry) [] script⟩, rfl,
        ⟨rfl, fun later member => reliable later (List.mem_cons_of_mem _ member)⟩, written⟩

end Journal

end TradingConnectivity.Gateway
