import Mathlib.Data.List.Forall2
import TradingConnectivity.Normalize.Sbe
import TradingConnectivity.Normalize.Spot

/-! # Agreement of the JSON and the SBE pipeline

A spot trade or depth update reaches the normalizers as JSON or as SBE. Every price, quantity, id
and side comes out the same, and the timestamps come out as nanoseconds of the same instant unless
the two normalizers read them in different units.
-/

namespace TradingConnectivity.Normalize

open ConnectorCore Decimal
open MarketData (PriceLevel)
open Sbe (Decimal64 DepthLevel TradeEvent DepthDiffEvent SbeMessage)
open Spot (SpotTrade SpotDepthUpdate SpotEvent)

/-! ## The same event in both forms -/

/-- A string that shows a decimal with all of its eight places. -/
def Prints (text : String) (d : Decimal64) : Prop :=
  ∃ numeral : Numeral, text = numeral.text ∧ numeral.negative = false ∧
    numeral.fractionDigits.length = 8 ∧ (numeral.mantissa : ℤ) = d.mantissa.toInt

def PrintsLevel (level : String × String) (lvl : DepthLevel) : Prop :=
  Prints level.1 lvl.price ∧ Prints level.2 lvl.quantity

/-- The number of an id, which is not negative. -/
def SameId (id : UInt64) (signed : Int64) : Prop := (id.toNat : ℤ) = signed.toInt

/-- Both forms carry the same trade, up to its timestamps. -/
structure SameTrade (json : SpotTrade) (sbe : TradeEvent) : Prop where
  tradeId : SameId json.tradeId sbe.tradeId
  price : Prints json.price sbe.price
  qty : Prints json.qty sbe.quantity
  maker : json.isBuyerMaker = sbe.isBuyerMarketMaker
  aggressor : sbe.aggressorSide = if json.isBuyerMaker then .sell else .buy

/-- Both forms carry the same depth update, up to its timestamp. -/
structure SameDepth (json : SpotDepthUpdate) (sbe : DepthDiffEvent) : Prop where
  firstUpdateId : SameId json.firstUpdateId sbe.firstUpdateId
  lastUpdateId : SameId json.lastUpdateId sbe.finalUpdateId
  prevFinalUpdateId : sbe.prevFinalUpdateId = 0
  bids : List.Forall₂ PrintsLevel json.bids sbe.bids
  asks : List.Forall₂ PrintsLevel json.asks sbe.asks

inductive SameEvent : SpotEvent → SbeMessage → Prop
  | trade {json : SpotTrade} {sbe : TradeEvent} (same : SameTrade json sbe) :
      SameEvent (.trade json) (.trade sbe)
  | depth {json : SpotDepthUpdate} {sbe : DepthDiffEvent} (same : SameDepth json sbe) :
      SameEvent (.depthUpdate json) (.depthDiff sbe)

/-- The timestamps that a message is made from. -/
def Spot.SpotEvent.timestamps : SpotEvent → List Int64
  | .trade tr => [tr.eventTimeMs, tr.tradeTimeMs]
  | .depthUpdate du => [du.eventTimeMs]
  | _ => []

def Sbe.SbeMessage.timestamps : SbeMessage → List Int64
  | .trade ev => [ev.eventTime, ev.transactTime]
  | .depthDiff ev => [ev.eventTime]
  | _ => []

/-- Neither the power of ten nor the scaled decimal overflows. -/
def Sbe.Decimal64.Fits (d : Decimal64) (scale : UInt32) : Prop :=
  10 ^ scale.toNat ≤ Int64.maxValue.toInt ∧
    d.mantissa.toInt * 10 ^ scale.toNat / 10 ^ 8 ≤ Int64.maxValue.toInt

def Sbe.DepthLevel.Fits (inst : InstrumentDefinition) (lvl : DepthLevel) : Prop :=
  lvl.price.Fits inst.priceScale ∧ lvl.quantity.Fits inst.qtyScale

/-- Nothing overflows at the scales of the instrument. -/
def Sbe.SbeMessage.Fits (inst : InstrumentDefinition) : SbeMessage → Prop
  | .trade ev => ev.price.Fits inst.priceScale ∧ ev.quantity.Fits inst.qtyScale
  | .depthDiff ev => (∀ lvl ∈ ev.bids, lvl.Fits inst) ∧ (∀ lvl ∈ ev.asks, lvl.Fits inst)
  | _ => True

/-! ## Prices and quantities -/

theorem scale_le_of_power_fits {n : ℕ} (fits : (10 : ℤ) ^ n ≤ Int64.maxValue.toInt) : n ≤ 18 := by
  by_contra large
  have grown : (10 : ℤ) ^ 19 ≤ 10 ^ n := pow_le_pow_right₀ (by norm_num) (by omega)
  have most := Int64.toInt_maxValue
  omega

private theorem toInt_power {n : ℕ} (small : n ≤ 18) : (Int64.ofInt (10 ^ n)).toInt = 10 ^ n := by
  have bound : (10 : ℤ) ^ n ≤ 10 ^ 18 := pow_le_pow_right₀ (by norm_num) small
  have positive : (0 : ℤ) < 10 ^ n := by positivity
  exact Int64.toInt_ofInt_of_le (by omega) (by omega)

/-- Scaling to fewer than eight places divides. -/
private theorem toInt_toScaled_coarser {d : Decimal64} {scale : UInt32}
    (nonneg : 0 ≤ d.mantissa.toInt) (coarser : scale.toNat < 8) :
    (d.toScaled scale).toInt = d.mantissa.toInt * 10 ^ scale.toNat / 10 ^ 8 := by
  have below : scale < Sbe.scale := UInt32.lt_iff_toNat_lt.mpr coarser
  have steps : (Sbe.scale - scale).toNat = 8 - scale.toNat :=
    UInt32.toNat_sub_of_le _ _ (UInt32.le_of_lt below)
  have divisor := toInt_power (n := 8 - scale.toNat) (by omega)
  have notMinusOne : Int64.ofInt (10 ^ (8 - scale.toNat)) ≠ -1 := by
    intro wrong
    have positive : (0 : ℤ) < 10 ^ (8 - scale.toNat) := by positivity
    rw [← divisor, wrong] at positive
    exact absurd positive (by decide)
  have power : (10 : ℤ) ^ 8 = 10 ^ (8 - scale.toNat) * 10 ^ scale.toNat :=
    (pow_sub_mul_pow 10 (Nat.le_of_lt coarser)).symm
  rw [Decimal64.toScaled, if_neg (UInt32.ne_of_lt below), if_pos below, steps,
    Int64.toInt_div_of_ne_right _ _ notMinusOne, divisor, Int.tdiv_eq_ediv_of_nonneg nonneg, power,
    Int.mul_ediv_mul_of_pos_left _ _ (by positivity)]

/-- Scaling to more than eight places multiplies. -/
private theorem toInt_toScaled_finer {d : Decimal64} {scale : UInt32}
    (nonneg : 0 ≤ d.mantissa.toInt) (finer : 8 < scale.toNat) (fits : d.Fits scale) :
    (d.toScaled scale).toInt = d.mantissa.toInt * 10 ^ scale.toNat / 10 ^ 8 := by
  have small := scale_le_of_power_fits fits.1
  have above : Sbe.scale < scale := UInt32.lt_iff_toNat_lt.mpr finer
  have steps : (scale - Sbe.scale).toNat = scale.toNat - 8 :=
    UInt32.toNat_sub_of_le _ _ (UInt32.le_of_lt above)
  have multiplier := toInt_power (n := scale.toNat - 8) (by omega)
  have power : (10 : ℤ) ^ scale.toNat = 10 ^ (scale.toNat - 8) * 10 ^ 8 :=
    (pow_sub_mul_pow 10 (Nat.le_of_lt finer)).symm
  have exact : d.mantissa.toInt * 10 ^ scale.toNat / 10 ^ 8 =
      d.mantissa.toInt * 10 ^ (scale.toNat - 8) := by
    rw [power, ← mul_assoc, Int.mul_ediv_cancel _ (by norm_num)]
  have upper := fits.2
  have most := Int64.toInt_maxValue
  have lower : 0 ≤ d.mantissa.toInt * 10 ^ (scale.toNat - 8) := by positivity
  rw [exact, most] at upper
  rw [Decimal64.toScaled, if_neg (UInt32.ne_of_lt above).symm, if_neg (UInt32.lt_asymm above),
    steps, exact, Int64.toInt_mul, multiplier]
  exact Int.bmod_eq_of_le (by omega) (by omega)

/-- Scaling an SBE decimal truncates its value in the new unit. -/
theorem toInt_toScaled {d : Decimal64} {scale : UInt32} (nonneg : 0 ≤ d.mantissa.toInt)
    (fits : d.Fits scale) :
    (d.toScaled scale).toInt = d.mantissa.toInt * 10 ^ scale.toNat / 10 ^ 8 := by
  rcases Nat.lt_trichotomy scale.toNat 8 with coarser | eight | finer
  · exact toInt_toScaled_coarser nonneg coarser
  · have same : scale = Sbe.scale := UInt32.toNat_inj.mp eight
    rw [Decimal64.toScaled, if_pos same, eight, Int.mul_ediv_cancel _ (by norm_num)]
  · exact toInt_toScaled_finer nonneg finer fits

/-- Scaling a printed decimal truncates its value in the new unit. -/
theorem scaled_printed {numeral : Numeral} {d : Decimal64} (unsigned : numeral.negative = false)
    (places : numeral.fractionDigits.length = 8)
    (mantissa : (numeral.mantissa : ℤ) = d.mantissa.toInt) (n : ℕ) :
    numeral.scaled n = d.mantissa.toInt * 10 ^ n / 10 ^ 8 := by
  have value := numeral.scaled_magnitude n
  rw [places] at value
  rw [numeral.scaled_eq, numeral.sign_unsigned unsigned, one_mul, ← value, ← mantissa]
  push_cast
  rfl

/-- A printed decimal is parsed to what the SBE form is scaled to. -/
theorem parseScaled_printed {text : String} {d : Decimal64} {scale : UInt32}
    (prints : Prints text d) (fits : d.Fits scale) :
    Spot.parseScaled text scale = .ok (d.toScaled scale) := by
  obtain ⟨numeral, rfl, unsigned, places, mantissa⟩ := prints
  have scaled := scaled_printed unsigned places mantissa scale.toNat
  have lower := numeral.scaled_nonneg unsigned scale.toNat
  have least : Int64.minValue.toInt ≤ 0 := by decide
  obtain ⟨v, parsed, exact⟩ := parseScaledWith_text numeral Spot.NormalizeError.invalidDecimal
    (scale_le_of_power_fits fits.1) (by omega) (scaled ▸ fits.2)
  have same : v = d.toScaled scale := by
    rw [← Int64.toInt_inj, exact, toInt_toScaled (by omega) fits, ← scaled, numeral.scaled_eq,
      numeral.sign_unsigned unsigned]
    push_cast
    ring
  rw [Spot.parseScaled, parsed, same]

private theorem parseLevels_printed {inst : InstrumentDefinition} {levels : List (String × String)}
    {lvls : List DepthLevel} (prints : List.Forall₂ PrintsLevel levels lvls)
    (fits : ∀ lvl ∈ lvls, lvl.Fits inst) :
    Spot.parseLevels inst.priceScale inst.qtyScale levels =
      .ok (lvls.map (DepthLevel.normalize inst.priceScale inst.qtyScale)) := by
  rw [Spot.parseLevels]
  induction prints with
  | nil => rfl
  | @cons level lvl levels lvls head tail ih =>
    have first := fits lvl List.mem_cons_self
    rw [List.mapM_cons, ih fun other mem => fits other (List.mem_cons_of_mem _ mem)]
    simp only [parseScaled_printed head.1 first.1, parseScaled_printed head.2 first.2]
    rfl

/-! ## Messages -/

/-- Both pipelines produce the same message and advance the sequence number alike. -/
def Agree (json : SpotEvent) (sbe : SbeMessage) (inst : InstrumentDefinition) (ctx : NormalizeCtx)
    (recvTs : Int64) (seq : UInt64) : Prop :=
  let (message, next) := (Sbe.normalizeSbeMessage sbe inst ctx recvTs).run seq
  (Spot.normalizeSpotEvent json inst ctx recvTs).run.run seq = (.ok message, next)

private theorem sameId_toUInt64 {id : UInt64} {signed : Int64} (same : SameId id signed) :
    signed.toUInt64 = id := by
  rw [← UInt64.toNat_inj]
  have nonneg : 0 ≤ signed.toInt := by
    rw [← same]
    exact Int.natCast_nonneg _
  rw [Int64.toNat_toUInt64_of_le (Int64.le_iff_toInt_le.mpr nonneg), Int64.toNatClampNeg, ← same]
  rfl

private theorem agree_of_runs {json : SpotEvent} {sbe : SbeMessage} {inst : InstrumentDefinition}
    {ctx : NormalizeCtx} {recvTs : Int64} {seq next : UInt64}
    {ours theirs : Option NormalizedMessage}
    (spot : (Spot.normalizeSpotEvent json inst ctx recvTs).run.run seq = (.ok ours, next))
    (binary : (Sbe.normalizeSbeMessage sbe inst ctx recvTs).run seq = (theirs, next)) :
    Agree json sbe inst ctx recvTs seq ↔ ours = theirs := by
  rw [Agree, spot, binary]
  constructor
  · intro same
    exact Except.ok.inj (Prod.mk.inj same).1
  · rintro rfl
    rfl

variable {json : SpotEvent} {sbe : SbeMessage} {inst : InstrumentDefinition}

/-- Apart from its timestamps, an event becomes the same message in both pipelines. -/
theorem agree_iff_nanoseconds (same : SameEvent json sbe) (fits : sbe.Fits inst)
    (ctx : NormalizeCtx) (recvTs : Int64) (seq : UInt64) :
    Agree json sbe inst ctx recvTs seq ↔
      json.timestamps.map msToNs = sbe.timestamps.map usToNs := by
  cases same with
  | @trade json sbe same =>
    have side : Sbe.sbeAggressorToCore sbe.aggressorSide =
        if json.isBuyerMaker then .sell else .buy := by
      rw [same.aggressor]
      cases json.isBuyerMaker <;> rfl
    have body : Spot.normalizeTrade json inst ctx recvTs seq = .ok {
        header := makeHeader .trade inst ctx seq (msToNs json.eventTimeMs) recvTs
        symbol := inst.symbol
        priceScale := inst.priceScale.toUInt8
        qtyScale := inst.qtyScale.toUInt8
        tradeId := sbe.tradeId.toUInt64
        price := sbe.price.toScaled inst.priceScale
        qty := sbe.quantity.toScaled inst.qtyScale
        tradeTs := msToNs json.tradeTimeMs
        isBuyerMaker := sbe.isBuyerMarketMaker
        aggressorSide := Sbe.sbeAggressorToCore sbe.aggressorSide } := by
      rw [Spot.normalizeTrade, parseScaled_printed same.price fits.1,
        parseScaled_printed same.qty fits.2, sameId_toUInt64 same.tradeId, ← same.maker, side]
      rfl
    have spot := Spot.run_trade inst ctx recvTs seq json
    rw [body] at spot
    rw [agree_of_runs spot rfl]
    simp [Sbe.normalizeTrade, makeHeader, Spot.SpotEvent.timestamps, Sbe.SbeMessage.timestamps]
  | @depth json sbe same =>
    have body : Spot.normalizeDepthUpdate json inst ctx recvTs seq = .ok {
        header := makeHeader .bookDelta inst ctx seq (msToNs json.eventTimeMs) recvTs
        symbol := inst.symbol
        priceScale := inst.priceScale.toUInt8
        qtyScale := inst.qtyScale.toUInt8
        firstUpdateId := sbe.firstUpdateId.toUInt64
        finalUpdateId := sbe.finalUpdateId.toUInt64
        prevUpdateId := sbe.prevFinalUpdateId.toUInt64
        bids := sbe.bids.map (DepthLevel.normalize inst.priceScale inst.qtyScale)
        asks := sbe.asks.map (DepthLevel.normalize inst.priceScale inst.qtyScale) } := by
      rw [Spot.normalizeDepthUpdate, parseLevels_printed same.bids fits.1,
        parseLevels_printed same.asks fits.2, sameId_toUInt64 same.firstUpdateId,
        sameId_toUInt64 same.lastUpdateId, same.prevFinalUpdateId]
      rfl
    have spot := Spot.run_depthUpdate inst ctx recvTs seq json
    rw [body] at spot
    rw [agree_of_runs spot rfl]
    simp [Sbe.normalizeDepthDiff, makeHeader, Spot.SpotEvent.timestamps,
      Sbe.SbeMessage.timestamps]

/-- Timestamps that both forms count in milliseconds come out alike only where scaling them by a
thousand makes no difference. -/
theorem pipelines_agree_iff (same : SameEvent json sbe) (times : json.timestamps = sbe.timestamps)
    (fits : sbe.Fits inst) (ctx : NormalizeCtx) (recvTs : Int64) (seq : UInt64) :
    Agree json sbe inst ctx recvTs seq ↔ ∀ t ∈ sbe.timestamps,
      t = 0 ∨ Int64.maxValue.toInt ≤ t.toInt * 1000 ∨
        t.toInt * 1000 ≤ Int64.minValue.toInt := by
  rw [agree_iff_nanoseconds same fits, times, List.map_inj_left]
  exact forall₂_congr fun t _ => msToNs_eq_usToNs

/-! ## One trade -/

abbrev spotBitcoin : InstrumentDefinition := bitcoin .binanceSpot .spot

def spotCtx : NormalizeCtx := ⟨.binanceSpot, .spot, 0, 1⟩

/-- 0.015 bought for 96500.5 each. -/
def jsonTrade (ms : Int64) : SpotTrade where
  eventTimeMs := ms
  tradeId := 3000001
  price := "96500.50000000"
  qty := "0.01500000"
  tradeTimeMs := ms
  isBuyerMaker := false

def sbeTrade (ms : Int64) : TradeEvent where
  eventTime := ms
  transactTime := ms
  tradeId := 3000001
  price := ⟨9650050000000⟩
  quantity := ⟨1500000⟩
  aggressorSide := .buy
  isBuyerMarketMaker := false

private theorem sameEvent_trade (ms : Int64) :
    SameEvent (.trade (jsonTrade ms)) (.trade (sbeTrade ms)) := by
  refine .trade ⟨rfl, ?_, ?_, rfl, rfl⟩
  · exact ⟨⟨false, [9, 6, 5, 0, 0], by decide, some [5, 0, 0, 0, 0, 0, 0, 0]⟩, rfl, rfl, rfl, rfl⟩
  · exact ⟨⟨false, [0], by decide, some [0, 1, 5, 0, 0, 0, 0, 0]⟩, rfl, rfl, rfl, rfl⟩

private theorem fits_trade (ms : Int64) : (SbeMessage.trade (sbeTrade ms)).Fits spotBitcoin := by
  have price : Decimal64.Fits ⟨9650050000000⟩ 2 := ⟨by decide, by decide⟩
  have quantity : Decimal64.Fits ⟨1500000⟩ 5 := ⟨by decide, by decide⟩
  exact ⟨price, quantity⟩

theorem pipelines_agree_iff_epoch :
    Agree (.trade (jsonTrade 0)) (.trade (sbeTrade 0)) spotBitcoin spotCtx 1 7 := by
  apply (pipelines_agree_iff (sameEvent_trade 0) rfl (fits_trade 0) spotCtx 1 7).mpr
  intro t mem
  left
  simpa [SbeMessage.timestamps, sbeTrade] using mem

/-- A trade of the year 2025 gets timestamps a thousand times apart. -/
theorem pipelines_disagree : ¬∀ (json : SpotEvent) (sbe : SbeMessage) (inst : InstrumentDefinition)
    (ctx : NormalizeCtx) (recvTs : Int64) (seq : UInt64), SameEvent json sbe →
      json.timestamps = sbe.timestamps → sbe.Fits inst → Agree json sbe inst ctx recvTs seq := by
  intro agree
  have trade := agree _ _ spotBitcoin spotCtx 1 7 (sameEvent_trade 1748000000000) rfl
    (fits_trade _)
  rw [agree_iff_nanoseconds (sameEvent_trade _) (fits_trade _)] at trade
  exact absurd trade (by decide)

/-- Timestamps that SBE counts in microseconds come out like those in JSON. -/
theorem pipelines_agree_of_microseconds (same : SameEvent json sbe)
    (times : List.Forall₂ (fun ms us => us.toInt = ms.toInt * 1000) json.timestamps sbe.timestamps)
    (fits : sbe.Fits inst) (ctx : NormalizeCtx) (recvTs : Int64) (seq : UInt64) :
    Agree json sbe inst ctx recvTs seq := by
  have alike := times.imp fun ms us thousandfold => msToNs_of_microseconds thousandfold
  have mapped : List.Forall₂ (· = ·) (json.timestamps.map msToNs) (sbe.timestamps.map usToNs) :=
    List.forall₂_map_left_iff.mpr (List.forall₂_map_right_iff.mpr alike)
  rw [agree_iff_nanoseconds same fits]
  rwa [List.forall₂_eq_eq_eq] at mapped

end TradingConnectivity.Normalize
