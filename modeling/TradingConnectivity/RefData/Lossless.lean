import TradingConnectivity.RefData.Normalizer

/-! # What an instrument definition loses

The tick size and the step size are scaled by their own number of decimals and stay exact. The
minimal quantity and the minimal notional are cut to these scales, and stay exact only if the digits
behind them are zero.
-/

namespace TradingConnectivity.RefData

open ConnectorCore Decimal
open Normalize (Failure)

/-- The filters of a symbol as decimals. -/
structure FilterDecimals where
  tickSize : Numeral
  stepSize : Numeral
  minQty : Numeral
  minNotional : Numeral

namespace FilterDecimals

variable (decimals : FilterDecimals)

def priceScale : ℕ := decimals.tickSize.fractionDigits.length

def qtyScale : ℕ := decimals.stepSize.fractionDigits.length

/-- The filters of the symbol are these decimals, without sign. -/
structure Describe (info : SymbolInfo) : Prop where
  tickSize : info.tickSizeStr = decimals.tickSize.text ∧ decimals.tickSize.negative = false
  stepSize : info.stepSizeStr = decimals.stepSize.text ∧ decimals.stepSize.negative = false
  minQty : info.minQtyStr = decimals.minQty.text ∧ decimals.minQty.negative = false
  minNotional : info.minNotionalStr = decimals.minNotional.text ∧
    decimals.minNotional.negative = false

/-- Neither the powers of ten nor the scaled decimals overflow. -/
structure Fit : Prop where
  priceScale : decimals.priceScale ≤ 18
  qtyScale : decimals.qtyScale ≤ 18
  tickSize : decimals.tickSize.scaled decimals.priceScale ≤ Int64.maxValue.toInt
  stepSize : decimals.stepSize.scaled decimals.qtyScale ≤ Int64.maxValue.toInt
  minQty : decimals.minQty.scaled decimals.qtyScale ≤ Int64.maxValue.toInt
  minNotional : decimals.minNotional.scaled decimals.priceScale ≤ Int64.maxValue.toInt

/-- The integers of a definition, divided by the powers of ten, are the decimals. -/
structure Exact (definition : InstrumentDefinition) : Prop where
  tickSize : (definition.tickSize.toInt : ℚ) / 10 ^ definition.priceScale.toNat =
    decimals.tickSize.value
  stepSize : (definition.stepSize.toInt : ℚ) / 10 ^ definition.qtyScale.toNat =
    decimals.stepSize.value
  minQty : (definition.minQty.toInt : ℚ) / 10 ^ definition.qtyScale.toNat = decimals.minQty.value
  minNotional : (definition.minNotional.toInt : ℚ) / 10 ^ definition.priceScale.toNat =
    decimals.minNotional.value

/-- The integers of a definition are the decimals truncated at the scales. -/
structure Truncated (definition : InstrumentDefinition) : Prop where
  priceScale : definition.priceScale.toNat = decimals.priceScale
  qtyScale : definition.qtyScale.toNat = decimals.qtyScale
  tickSize : definition.tickSize.toInt = decimals.tickSize.scaled decimals.priceScale
  stepSize : definition.stepSize.toInt = decimals.stepSize.scaled decimals.qtyScale
  minQty : definition.minQty.toInt = decimals.minQty.scaled decimals.qtyScale
  minNotional : definition.minNotional.toInt = decimals.minNotional.scaled decimals.priceScale

end FilterDecimals

variable {decimals : FilterDecimals}

/-- A symbol whose filters fit is normalized, with truncated decimals. -/
theorem normalizeSymbol_truncated {info : SymbolInfo} (described : decimals.Describe info)
    (fit : decimals.Fit) (venueId : VenueId) (marketType : MarketType) (instanceId : UInt32)
    (seq : UInt64) (now : Int64) :
    ∃ definition, normalizeSymbol info venueId marketType instanceId seq now = .ok definition ∧
      decimals.Truncated definition := by
  have priceScale : (deriveScale info.tickSizeStr).toNat = decimals.priceScale := by
    rw [described.tickSize.1]
    exact deriveScale_text _ (lt_of_le_of_lt fit.priceScale (by decide))
  have qtyScale : (deriveScale info.stepSizeStr).toNat = decimals.qtyScale := by
    rw [described.stepSize.1]
    exact deriveScale_text _ (lt_of_le_of_lt fit.qtyScale (by decide))
  have parses {text : String} {numeral : Numeral} {scale : UInt32} {n : ℕ}
      (written : text = numeral.text ∧ numeral.negative = false) (places : scale.toNat = n)
      (small : n ≤ 18) (upper : numeral.scaled n ≤ Int64.maxValue.toInt) :
      ∃ v : Int64, parseScaled text scale = .ok v ∧ v.toInt = numeral.scaled n := by
    obtain ⟨rfl, unsigned⟩ := written
    subst places
    exact parseScaled_unsigned numeral unsigned small upper
  obtain ⟨tick, tickParsed, tickValue⟩ :=
    parses described.tickSize priceScale fit.priceScale fit.tickSize
  obtain ⟨step, stepParsed, stepValue⟩ :=
    parses described.stepSize qtyScale fit.qtyScale fit.stepSize
  obtain ⟨qty, qtyParsed, qtyValue⟩ := parses described.minQty qtyScale fit.qtyScale fit.minQty
  obtain ⟨notional, notionalParsed, notionalValue⟩ :=
    parses described.minNotional priceScale fit.priceScale fit.minNotional
  simp only [normalizeSymbol, tickParsed, stepParsed, qtyParsed, notionalParsed]
  exact ⟨_, rfl, priceScale, qtyScale, tickValue, stepValue, qtyValue, notionalValue⟩

/-- Truncated decimals are exact if no other digits than zeros are cut. -/
theorem FilterDecimals.Truncated.exact_iff {definition : InstrumentDefinition}
    (truncated : decimals.Truncated definition) : decimals.Exact definition ↔
      (∀ d ∈ decimals.minQty.fractionDigits.drop decimals.qtyScale, d = 0) ∧
        ∀ d ∈ decimals.minNotional.fractionDigits.drop decimals.priceScale, d = 0 := by
  have own (numeral : Numeral) : (numeral.scaled numeral.fractionDigits.length : ℚ) /
      10 ^ numeral.fractionDigits.length = numeral.value := by
    rw [numeral.scaled_div_eq_value_iff, List.drop_length]
    exact fun d mem => absurd mem List.not_mem_nil
  constructor
  · intro exact
    have qty := exact.minQty
    have notional := exact.minNotional
    rw [truncated.minQty, truncated.qtyScale, Numeral.scaled_div_eq_value_iff] at qty
    rw [truncated.minNotional, truncated.priceScale, Numeral.scaled_div_eq_value_iff] at notional
    exact ⟨qty, notional⟩
  · rintro ⟨qty, notional⟩
    constructor
    · rw [truncated.tickSize, truncated.priceScale]
      exact own decimals.tickSize
    · rw [truncated.stepSize, truncated.qtyScale]
      exact own decimals.stepSize
    · rw [truncated.minQty, truncated.qtyScale, Numeral.scaled_div_eq_value_iff]
      exact qty
    · rw [truncated.minNotional, truncated.priceScale, Numeral.scaled_div_eq_value_iff]
      exact notional

/-! ## Prices -/

/-- At the scale of the definition the price is parsed to a multiple of the tick size. -/
def OnTick (definition : InstrumentDefinition) (price : Numeral) : Prop :=
  ∃ v : Int64, parseScaled price.text definition.priceScale = .ok v ∧
    definition.tickSize.toInt ∣ v.toInt

/-- A multiple of the tick size is truncated to a multiple of the truncated tick size. -/
private theorem scaled_multiple {price tick : Numeral} {k : ℤ}
    (multiple : price.value = k * tick.value) :
    price.scaled tick.fractionDigits.length = k * tick.scaled tick.fractionDigits.length := by
  have own := (tick.scaled_div_eq_value_iff tick.fractionDigits.length).mpr (by simp)
  have whole : price.value * 10 ^ tick.fractionDigits.length =
      ((k * tick.scaled tick.fractionDigits.length : ℤ) : ℚ) := by
    rw [multiple, ← own]
    push_cast
    field_simp
  rw [Numeral.scaled, whole, truncate_intCast]

/-- Twice the digits kept of a negative price have to be a multiple of the tick size, too. -/
theorem onTick_iff (fit : decimals.Fit) {definition : InstrumentDefinition}
    (truncated : decimals.Truncated definition) {price : Numeral} {k : ℤ}
    (multiple : price.value = k * decimals.tickSize.value)
    (lower : Int64.minValue.toInt ≤ price.scaled decimals.priceScale)
    (upper : price.scaled decimals.priceScale ≤ Int64.maxValue.toInt) :
    OnTick definition price ↔ price.negative = false ∨
      decimals.tickSize.scaled decimals.priceScale ∣
        2 * (digitsValue (price.kept decimals.priceScale) : ℤ) := by
  have whole : price.scaled decimals.priceScale =
      k * decimals.tickSize.scaled decimals.priceScale := scaled_multiple multiple
  have scale := truncated.priceScale
  obtain ⟨v, parsed, value⟩ := parseScaled_text price (scale ▸ fit.priceScale) (scale ▸ lower)
    (scale ▸ upper)
  have ticks : OnTick definition price ↔ definition.tickSize.toInt ∣ v.toInt := by
    rw [OnTick, parsed]
    constructor
    · rintro ⟨w, same, divides⟩
      cases same
      exact divides
    · intro divides
      exact ⟨v, rfl, divides⟩
  rw [ticks, value, scale, truncated.tickSize, whole]
  cases price.negative with
  | true =>
    simp only [if_true, Bool.true_eq_false, false_or]
    exact Int.dvd_add_right (Int.dvd_mul_left k _)
  | false => simp

/-! ## Symbols -/

/-- A symbol is normalized exactly if only zeros are cut from the two minima. A multiple of the tick
size is parsed to a multiple of the scaled one unless it is negative. -/
theorem normalizeSymbol_lossless_iff {info : SymbolInfo} (described : decimals.Describe info)
    (fit : decimals.Fit) (venueId : VenueId) (marketType : MarketType) (instanceId : UInt32)
    (seq : UInt64) (now : Int64) :
    ∃ definition, normalizeSymbol info venueId marketType instanceId seq now = .ok definition ∧
      (decimals.Exact definition ↔
        (∀ d ∈ decimals.minQty.fractionDigits.drop decimals.qtyScale, d = 0) ∧
          ∀ d ∈ decimals.minNotional.fractionDigits.drop decimals.priceScale, d = 0) ∧
      ∀ (price : Numeral) (k : ℤ), price.value = k * decimals.tickSize.value →
        Int64.minValue.toInt ≤ price.scaled decimals.priceScale →
        price.scaled decimals.priceScale ≤ Int64.maxValue.toInt →
          (OnTick definition price ↔ price.negative = false ∨
            decimals.tickSize.scaled decimals.priceScale ∣
              2 * (digitsValue (price.kept decimals.priceScale) : ℤ)) := by
  obtain ⟨definition, normalized, truncated⟩ :=
    normalizeSymbol_truncated described fit venueId marketType instanceId seq now
  exact ⟨definition, normalized, truncated.exact_iff,
    fun price k multiple lower upper => onTick_iff fit truncated multiple lower upper⟩

def filters (tickSize stepSize minQty notional : String) : List RawFilter :=
  [⟨"PRICE_FILTER", some tickSize, none, none, none, none⟩,
    ⟨"LOT_SIZE", none, some stepSize, some minQty, none, none⟩,
    ⟨"MIN_NOTIONAL", none, none, none, none, some notional⟩]

/-- A perpetual future whose filters have as many decimals as their scales. -/
def perpetualInfo : SymbolInfo where
  symbol := "BTCUSDT"
  status := "TRADING"
  baseAsset := "BTC"
  quoteAsset := "USDT"
  filters := filters "0.10" "0.001" "0.001" "100"

def perpetualDecimals : FilterDecimals where
  tickSize := .ofMantissa 10 2
  stepSize := .ofMantissa 1 3
  minQty := .ofMantissa 1 3
  minNotional := { Numeral.ofMantissa 100 0 with fraction := none }

private theorem perpetual_fit : perpetualDecimals.Fit := by
  constructor
  · decide
  · decide
  all_goals
    rw [Numeral.scaled_eq]
    decide

theorem normalizeSymbol_lossless_perpetual : ∃ definition,
    normalizeSymbol perpetualInfo .binanceFutures .usdmFutures 1 0 0 = .ok definition ∧
      perpetualDecimals.Exact definition := by
  have described : perpetualDecimals.Describe perpetualInfo :=
    ⟨⟨rfl, rfl⟩, ⟨rfl, rfl⟩, ⟨rfl, rfl⟩, ⟨rfl, rfl⟩⟩
  obtain ⟨definition, normalized, exact, -⟩ := normalizeSymbol_lossless_iff described perpetual_fit
    .binanceFutures .usdmFutures 1 0 0
  exact ⟨definition, normalized, exact.mpr (by decide)⟩

/-- A future that is traded in whole units and in halves at the least. -/
def wholeUnits : SymbolInfo where
  symbol := "TESTUSDT"
  status := "TRADING"
  baseAsset := "TEST"
  quoteAsset := "USDT"
  filters := filters "0.10" "1" "0.5" "5"

def wholeUnitsDecimals : FilterDecimals where
  tickSize := .ofMantissa 10 2
  stepSize := { Numeral.ofMantissa 1 0 with fraction := none }
  minQty := .ofMantissa 5 1
  minNotional := { Numeral.ofMantissa 5 0 with fraction := none }

/-- The minimal quantity of a half is cut to zero. -/
theorem minQty_cut : wholeUnitsDecimals.Describe wholeUnits ∧ wholeUnitsDecimals.Fit ∧
    ¬∃ definition, normalizeSymbol wholeUnits .binanceFutures .usdmFutures 1 0 0 = .ok definition ∧
      wholeUnitsDecimals.Exact definition := by
  refine ⟨⟨⟨rfl, rfl⟩, ⟨rfl, rfl⟩, ⟨rfl, rfl⟩, ⟨rfl, rfl⟩⟩, ?_, ?_⟩
  · constructor
    · decide
    · decide
    all_goals
      rw [Numeral.scaled_eq]
      decide
  · rintro ⟨definition, normalized, exact⟩
    have ran : (normalizeSymbol wholeUnits .binanceFutures .usdmFutures 1 0 0).map (·.minQty) =
        .ok 0 := by decide
    rw [normalized] at ran
    have zero : definition.minQty = 0 := Except.ok.inj ran
    have digits : wholeUnitsDecimals.minQty.mantissa = 5 := by decide
    have positive : 0 < wholeUnitsDecimals.minQty.value := by
      change 0 < wholeUnitsDecimals.minQty.magnitude
      rw [Numeral.magnitude, digits]
      positivity
    have value := exact.minQty
    rw [zero] at value
    simp [← value] at positive

end TradingConnectivity.RefData
