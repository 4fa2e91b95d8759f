import TradingConnectivity.Config.Sharding
import TradingConnectivity.ConnectorCore.Message
import TradingConnectivity.Normalize.ParseScaled

/-! # Normalization of exchange information

The REST response lists the symbols with their filters as strings. The scale of the prices is the
number of decimals of the tick size, the one of the quantities that of the step size.
-/

namespace TradingConnectivity.RefData

open ConnectorCore
open Normalize (Failure takeBytes_digits trim_numeral takeWhile_numeral dropWhile_numeral
  parseInt64_digits parseInt64_kept whole_fits toInt_parts parts_eq kept_digits byteLength_digits)
open Reconcile (trim parseInt64 takeBytes byteLength)

inductive RefDataError
  | invalidNumeric (value field : String)
deriving DecidableEq, Repr

structure RawFilter where
  filterType : String
  tickSize : Option String
  stepSize : Option String
  minQty : Option String
  minNotional : Option String
  /-- The futures spell the minimal notional in this way. -/
  notional : Option String
deriving DecidableEq, Repr

structure SymbolInfo where
  symbol : String
  status : String
  baseAsset : String
  quoteAsset : String
  filters : List RawFilter
deriving DecidableEq, Repr

/-! ## Scales -/

/-- The bytes behind the point. -/
def deriveScale (s : String) : UInt32 :=
  .ofNat (byteLength ((s.toList.dropWhile (· ≠ '.')).drop 1))

/-- The fraction as an integer: cut to the scale, which panics inside a character, and padded. -/
def parseFraction (invalid : RefDataError) (n : ℕ) (frac : List Char) :
    Except (Failure RefDataError) Int64 :=
  match takeBytes n frac with
  | none => .error .panicked
  | some kept =>
    let frac := kept ++ List.replicate (n - byteLength kept) '0'
    if frac = [] then .ok 0
    else
      match parseInt64 frac with
      | none => .error (.returned invalid)
      | some value => .ok value

/-- Convert a decimal string to an integer in units of ten to the minus `scale`. -/
def parseScaled (s : String) (scale : UInt32) : Except (Failure RefDataError) Int64 := do
  let s := trim s.toList
  let invalid : RefDataError := .invalidNumeric (String.ofList s) "numeric"
  let int := s.takeWhile (· ≠ '.')
  let frac := (s.dropWhile (· ≠ '.')).drop 1
  let intPart ←
    match parseInt64 int with
    | none => .error (.returned invalid)
    | some value => .ok value
  let fracPart ← parseFraction invalid scale.toNat frac
  return intPart * Int64.ofInt (10 ^ scale.toNat) + fracPart

/-! ## Numerals -/

section Numerals

open Decimal

variable (numeral : Numeral)

theorem deriveScale_text (places : numeral.fractionDigits.length < 2 ^ 32) :
    (deriveScale numeral.text).toNat = numeral.fractionDigits.length := by
  rw [deriveScale, Numeral.text, String.toList_ofList, dropWhile_numeral, byteLength_digits,
    UInt32.toNat_ofNat_of_lt' places]

theorem parseFraction_numeral (invalid : RefDataError) {n : ℕ} (powerFits : n ≤ 18) :
    parseFraction invalid n (numeral.fractionDigits.map digitChar) =
      .ok (Int64.ofInt (digitsValue (numeral.kept n))) := by
  have missing : n - (numeral.fractionDigits.take n).length =
      n - numeral.fractionDigits.length := by
    rw [List.length_take]
    omega
  simp only [parseFraction, takeBytes_digits, byteLength_digits, missing, ← kept_digits]
  by_cases empty : numeral.kept n = []
  · rw [empty]
    rfl
  · have value := parseInt64_kept numeral powerFits empty
    rw [if_neg (by simpa using empty)]
    simp only [value]

/-- This parser, too, adds the digits after the point to the signed whole part. -/
theorem parseScaled_text {scale : UInt32} (powerFits : scale.toNat ≤ 18)
    (lower : Int64.minValue.toInt ≤ numeral.scaled scale.toNat)
    (upper : numeral.scaled scale.toNat ≤ Int64.maxValue.toInt) :
    ∃ v : Int64, parseScaled numeral.text scale = .ok v ∧
      v.toInt = numeral.scaled scale.toNat +
        if numeral.negative then 2 * (digitsValue (numeral.kept scale.toNat) : ℤ) else 0 := by
  refine ⟨Int64.ofInt (numeral.sign * digitsValue numeral.whole) *
    Int64.ofInt (10 ^ scale.toNat) + Int64.ofInt (digitsValue (numeral.kept scale.toNat)), ?_,
    (toInt_parts numeral powerFits lower upper).trans (parts_eq numeral _)⟩
  have whole := parseInt64_digits numeral.negative numeral.whole_ne_nil
    (whole_fits numeral lower upper)
  simp only [parseScaled, Numeral.text, String.toList_ofList, trim_numeral, takeWhile_numeral,
    dropWhile_numeral, whole, parseFraction_numeral numeral _ powerFits]
  rfl

/-- A decimal without sign is parsed to its truncated value. -/
theorem parseScaled_unsigned (unsigned : numeral.negative = false) {scale : UInt32}
    (powerFits : scale.toNat ≤ 18) (upper : numeral.scaled scale.toNat ≤ Int64.maxValue.toInt) :
    ∃ v : Int64, parseScaled numeral.text scale = .ok v ∧
      v.toInt = numeral.scaled scale.toNat := by
  have least : Int64.minValue.toInt ≤ 0 := by decide
  have nonneg := numeral.scaled_nonneg unsigned scale.toNat
  obtain ⟨v, parsed, value⟩ := parseScaled_text numeral powerFits (by omega) upper
  exact ⟨v, parsed, by simpa [unsigned] using value⟩

end Numerals

/-! ## Symbols -/

/-- The hash of a symbol, stable across restarts. -/
def symbolInstrumentId (symbol : String) : UInt32 :=
  (Codec.strBytes symbol).foldl Config.fnvStep Config.fnvBasis

def makeHeader (messageType : MessageType) (venueId : VenueId) (marketType : MarketType)
    (instrumentId instanceId : UInt32) (seq : UInt64) (ts : Int64) : MessageHeader where
  schemaVersion := schemaVersion
  messageType := messageType
  venueId := venueId
  marketType := marketType
  instrumentId := instrumentId
  connectionId := 0
  instanceId := instanceId
  sequenceNumber := seq
  exchangeEventTs := tsNone
  exchangeTxTs := tsNone
  localRecvTs := ts
  localPublishTs := ts

namespace SymbolInfo

variable (info : SymbolInfo)

def priceFilter : Option RawFilter := info.filters.find? (·.filterType = "PRICE_FILTER")

def lotFilter : Option RawFilter := info.filters.find? (·.filterType = "LOT_SIZE")

def notionalFilter : Option RawFilter :=
  info.filters.find? fun f => f.filterType = "NOTIONAL" ∨ f.filterType = "MIN_NOTIONAL"

def tickSizeStr : String := (info.priceFilter.bind (·.tickSize)).getD "0.00000001"

def stepSizeStr : String := (info.lotFilter.bind (·.stepSize)).getD "0.00000001"

def minQtyStr : String := (info.lotFilter.bind (·.minQty)).getD "0"

def minNotionalStr : String :=
  (info.notionalFilter.bind fun f => f.minNotional.or f.notional).getD "0"

end SymbolInfo

/-- One symbol as an instrument definition; `now` is what the clock shows. -/
def normalizeSymbol (info : SymbolInfo) (venueId : VenueId) (marketType : MarketType)
    (instanceId : UInt32) (seq : UInt64) (now : Int64) :
    Except (Failure RefDataError) InstrumentDefinition := do
  let priceScale := deriveScale info.tickSizeStr
  let qtyScale := deriveScale info.stepSizeStr
  let tickSize ← parseScaled info.tickSizeStr priceScale
  let stepSize ← parseScaled info.stepSizeStr qtyScale
  let minQty ← parseScaled info.minQtyStr qtyScale
  let minNotional ← parseScaled info.minNotionalStr priceScale
  let instrId := symbolInstrumentId info.symbol
  return {
    header := makeHeader .instrumentDefinition venueId marketType instrId instanceId seq now
    symbol := info.symbol
    baseAsset := info.baseAsset
    quoteAsset := info.quoteAsset
    priceScale
    qtyScale
    tickSize
    stepSize
    minQty
    minNotional
    contractSize := match marketType with
      | .usdmFutures => 1
      | .spot => 0
    isTrading := info.status = "TRADING" }

end TradingConnectivity.RefData
