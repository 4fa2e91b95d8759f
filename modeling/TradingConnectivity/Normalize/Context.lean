import TradingConnectivity.ConnectorCore.Message
import TradingConnectivity.Normalize.ParseScaled
import TradingConnectivity.ToMathlib.FixedWidth

/-! # Context of the normalizers

The header of a normalized message, its sequence number and the units of its timestamps are made in
the same way for every protocol.
-/

namespace TradingConnectivity.Normalize

open ConnectorCore

/-- Runtime context shared by all calls of one connection. -/
structure NormalizeCtx where
  venueId : VenueId
  marketType : MarketType
  instanceId : UInt32
  connectionId : UInt32
deriving DecidableEq, Repr

/-- Bitcoin at one of the venues. -/
def bitcoin (venueId : VenueId) (marketType : MarketType) : InstrumentDefinition where
  header := ⟨schemaVersion, .instrumentDefinition, venueId, marketType, 1, 0, 0, 0, 0, 0, 0, 0⟩
  symbol := "BTCUSDT"
  baseAsset := "BTC"
  quoteAsset := "USDT"
  priceScale := 2
  qtyScale := 5
  tickSize := 10
  stepSize := 1
  minQty := 1
  minNotional := 500
  contractSize := 0
  isTrading := true

/-- A call that may fail after it has advanced the sequence number. -/
abbrev Normalizer (ε : Type) := ExceptT (Failure ε) (StateM UInt64)

/-- Take the next sequence number; the counter wraps. -/
def takeSeq {m : Type → Type} [Monad m] [MonadStateOf UInt64 m] : m UInt64 := do
  let n ← get
  set (n + 1)
  return n

def makeHeader (msgType : MessageType) (inst : InstrumentDefinition) (ctx : NormalizeCtx)
    (seq : UInt64) (exchangeEventTs recvTs : Int64) : MessageHeader where
  schemaVersion := schemaVersion
  messageType := msgType
  venueId := ctx.venueId
  marketType := ctx.marketType
  instrumentId := inst.header.instrumentId
  connectionId := ctx.connectionId
  instanceId := ctx.instanceId
  sequenceNumber := seq
  exchangeEventTs := exchangeEventTs
  exchangeTxTs := tsNone
  localRecvTs := recvTs
  localPublishTs := tsNone

/-- Milliseconds to nanoseconds, stopping at the ends of the range. -/
def msToNs (ms : Int64) : Int64 := ms.saturatingMul 1000000

/-- Microseconds to nanoseconds, stopping at the ends of the range. -/
def usToNs (us : Int64) : Int64 := us.saturatingMul 1000

/-- Take a sequence number and build the message it belongs to, which may fail. -/
def numbered {ε α : Type} (body : UInt64 → Except (Failure ε) α) : Normalizer ε α := do
  let seq ← takeSeq
  MonadExcept.ofExcept (body seq)

@[simp] theorem run_takeSeq (seq : UInt64) :
    (takeSeq : StateM UInt64 UInt64).run seq = (seq, seq + 1) := rfl

section Runs

variable {ε α β : Type} {call : Normalizer ε α} {seq next : UInt64}

/-- A call that succeeds hands its value and the counter on. -/
theorem run_bind_ok {a : α} (ran : call.run.run seq = (.ok a, next)) (rest : α → Normalizer ε β) :
    (call >>= rest).run.run seq = (rest a).run.run next := by
  rw [ExceptT.run_bind, StateT.run_bind, ran]
  rfl

/-- A call that fails ends the calls around it, and the counter stays where it was. -/
theorem run_bind_error {f : Failure ε} (ran : call.run.run seq = (.error f, next))
    (rest : α → Normalizer ε β) : (call >>= rest).run.run seq = (.error f, next) := by
  rw [ExceptT.run_bind, StateT.run_bind, ran]
  rfl

theorem run_ofExcept (result : Except (Failure ε) α) (seq : UInt64) :
    (MonadExcept.ofExcept result : Normalizer ε α).run.run seq = (result, seq) := by
  cases result <;> rfl

theorem run_numbered (body : UInt64 → Except (Failure ε) α) (seq : UInt64) :
    (numbered body).run.run seq = (body seq, seq + 1) :=
  run_ofExcept (body seq) (seq + 1)

/-- The number is used up even when the message cannot be built. -/
theorem run_numbered_map (body : UInt64 → Except (Failure ε) α) (f : α → β) (seq : UInt64) :
    (do return f (← numbered body) : Normalizer ε β).run.run seq =
      ((body seq).map f, seq + 1) := by
  have ran := run_numbered body seq
  cases result : body seq with
  | error e => rw [run_bind_error (ran.trans (by rw [result]))]; rfl
  | ok a => rw [run_bind_ok (ran.trans (by rw [result]))]; rfl

end Runs

/-! ## Units of time -/

/-- A timestamp counted in milliseconds and in microseconds is the same only at the epoch or where
both saturate. -/
theorem msToNs_eq_usToNs {t : Int64} : msToNs t = usToNs t ↔
    t = 0 ∨ Int64.maxValue.toInt ≤ t.toInt * 1000 ∨ t.toInt * 1000 ≤ Int64.minValue.toInt := by
  have least := Int64.toInt_minValue
  have most := Int64.toInt_maxValue
  have thousand : (1000 : Int64).toInt = 1000 := rfl
  have million : (1000000 : Int64).toInt = 1000000 := rfl
  have epoch : t = 0 ↔ t.toInt = 0 := Int64.toInt_inj.symm
  rw [epoch, ← Int64.toInt_inj, msToNs, usToNs, Int64.toInt_saturatingMul,
    Int64.toInt_saturatingMul, thousand, million]
  omega

/-- The same instant in milliseconds and in microseconds. -/
theorem msToNs_of_microseconds {ms us : Int64} (thousandfold : us.toInt = ms.toInt * 1000) :
    msToNs ms = usToNs us := by
  have thousand : (1000 : Int64).toInt = 1000 := rfl
  have million : (1000000 : Int64).toInt = 1000000 := rfl
  rw [← Int64.toInt_inj, msToNs, usToNs, Int64.toInt_saturatingMul, Int64.toInt_saturatingMul,
    thousand, million, thousandfold]
  omega

end TradingConnectivity.Normalize
