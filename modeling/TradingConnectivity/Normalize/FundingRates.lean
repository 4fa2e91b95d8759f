import TradingConnectivity.Normalize.Futures

/-! # Funding rates

A negative funding rate is parsed to its whole part plus the digits after the point. It comes out
too high by twice these digits, with the opposite sign if the whole part is zero.
-/

namespace TradingConnectivity.Normalize.Futures

open ConnectorCore Decimal

variable (numeral : Numeral) {scale : UInt32}

/-- A numeral is parsed to its truncated value plus, if it is negative, twice the digits kept after
the point. -/
theorem parseScaled_text (powerFits : scale.toNat ≤ 18)
    (lower : Int64.minValue.toInt ≤ numeral.scaled scale.toNat)
    (upper : numeral.scaled scale.toNat ≤ Int64.maxValue.toInt) :
    ∃ v : Int64, parseScaled numeral.text scale = .ok v ∧
      v.toInt = numeral.scaled scale.toNat +
        if numeral.negative then 2 * (digitsValue (numeral.kept scale.toNat) : ℤ) else 0 := by
  obtain ⟨v, parsed, value⟩ :=
    parseScaledWith_text numeral NormalizeError.invalidDecimal powerFits lower upper
  exact ⟨v, parsed, value.trans (parts_eq numeral _)⟩

/-- The parsed value is the truncated one unless digits after a minus sign are lost. -/
theorem parseScaled_exact_iff (powerFits : scale.toNat ≤ 18)
    (lower : Int64.minValue.toInt ≤ numeral.scaled scale.toNat)
    (upper : numeral.scaled scale.toNat ≤ Int64.maxValue.toInt) :
    (∃ v : Int64, parseScaled numeral.text scale = .ok v ∧ v.toInt = numeral.scaled scale.toNat) ↔
      numeral.negative = false ∨ ∀ d ∈ numeral.kept scale.toNat, d = 0 := by
  obtain ⟨v, parsed, value⟩ := parseScaled_text numeral powerFits lower upper
  rw [← parts_exact_iff numeral value]
  constructor
  · rintro ⟨w, again, exact⟩
    obtain rfl := Except.ok.inj (parsed.symm.trans again)
    exact exact
  · intro exact
    exact ⟨v, parsed, exact⟩

/-- A mark price event produces a message with this funding rate. -/
def EmitsFunding (mp : FuturesMarkPrice) (inst : InstrumentDefinition) (ctx : NormalizeCtx)
    (recvTs : Int64) (seq : UInt64) (rate : ℤ) : Prop :=
  ∃ messages next funding,
    (normalizeFuturesEvent (.markPrice mp) inst ctx recvTs).run.run seq = (.ok messages, next) ∧
      .fundingRate funding ∈ messages ∧ funding.fundingRate.toInt = rate

/-- With a valid mark price and index price, the event carries the rate that is parsed. -/
theorem emitsFunding_iff {mp : FuturesMarkPrice} {inst : InstrumentDefinition}
    {index mark : Int64} (indexParses : parseIndexPrice mp inst = .ok index)
    (markParses : parseScaled mp.markPrice inst.priceScale = .ok mark)
    (present : mp.fundingRate ≠ "") (ctx : NormalizeCtx) (recvTs : Int64) (seq : UInt64)
    (rate : ℤ) : EmitsFunding mp inst ctx recvTs seq rate ↔
      ∃ v : Int64, parseScaled mp.fundingRate 9 = .ok v ∧ v.toInt = rate := by
  obtain ⟨first, marked⟩ : ∃ first, normalizeMark mp index inst ctx recvTs seq = .ok first := by
    rw [normalizeMark, markParses]
    exact ⟨_, rfl⟩
  have ran := run_markPrice_funded indexParses marked present
  constructor
  · rintro ⟨messages, next, funding, produced, mem, exact⟩
    cases parsed : parseScaled mp.fundingRate 9 with
    | error f =>
      rw [ran, normalizeFunding, parsed] at produced
      cases produced
    | ok v =>
      rw [ran, normalizeFunding, parsed] at produced
      obtain rfl := Except.ok.inj (Prod.mk.inj produced).1
      rcases List.mem_cons.mp mem with markMessage | rest
      · cases markMessage
      · obtain rfl := NormalizedMessage.fundingRate.inj (List.mem_singleton.mp rest)
        exact ⟨v, rfl, exact⟩
  · rintro ⟨v, parsed, exact⟩
    rw [normalizeFunding, parsed] at ran
    exact ⟨_, _, _, ran, List.mem_cons_of_mem _ List.mem_cons_self, exact⟩

/-- The digits after the point of a negated string still count upwards. -/
theorem parseScaled_negated_iff (unsigned : numeral.negative = false)
    (powerFits : scale.toNat ≤ 18) (upper : numeral.scaled scale.toNat ≤ Int64.maxValue.toInt) :
    (∃ v w : Int64, parseScaled numeral.text scale = .ok v ∧
      parseScaled ("-" ++ numeral.text) scale = .ok w ∧ w.toInt = -v.toInt) ↔
        ∀ d ∈ numeral.kept scale.toNat, d = 0 := by
  have nonneg := numeral.scaled_nonneg unsigned scale.toNat
  have least := Int64.toInt_minValue
  have most := Int64.toInt_maxValue
  have opposite := numeral.scaled_neg scale.toNat
  obtain ⟨v, parsed, value⟩ := parseScaled_text numeral powerFits (by omega) upper
  have value' : v.toInt = numeral.scaled scale.toNat := by simpa [unsigned] using value
  have exact := parseScaled_exact_iff numeral.neg powerFits (by omega) (by omega)
  rw [Numeral.text_neg numeral unsigned, opposite, numeral.negative_neg unsigned,
    Numeral.kept_neg, ← value'] at exact
  constructor
  · rintro ⟨v', w, again, negated, sum⟩
    obtain rfl := Except.ok.inj (parsed.symm.trans again)
    exact (exact.mp ⟨w, negated, sum⟩).resolve_left (by decide)
  · intro zeros
    obtain ⟨w, negated, sum⟩ := exact.mpr (.inr zeros)
    exact ⟨v, w, parsed, negated, sum⟩

/-- A rate is emitted as it is, truncated to nine places, if it has no minus sign or only zeros in
these places, and a negated string is parsed to the opposite if its places hold only zeros. -/
theorem funding_rates_iff {r : Numeral} (lower : Int64.minValue.toInt ≤ r.scaled 9)
    (upper : r.scaled 9 ≤ Int64.maxValue.toInt) {mp : FuturesMarkPrice}
    (rate : mp.fundingRate = r.text) {inst : InstrumentDefinition} {index mark : Int64}
    (indexParses : parseIndexPrice mp inst = .ok index)
    (markParses : parseScaled mp.markPrice inst.priceScale = .ok mark)
    (ctx : NormalizeCtx) (recvTs : Int64) (seq : UInt64)
    {s : Numeral} (unsigned : s.negative = false) {scale : UInt32}
    (powerFits : scale.toNat ≤ 18) (fits : s.scaled scale.toNat ≤ Int64.maxValue.toInt) :
    (EmitsFunding mp inst ctx recvTs seq (r.scaled 9) ↔
      r.negative = false ∨ ∀ d ∈ r.kept 9, d = 0) ∧
    ((∃ v w : Int64, parseScaled s.text scale = .ok v ∧
      parseScaled ("-" ++ s.text) scale = .ok w ∧ w.toInt = -v.toInt) ↔
        ∀ d ∈ s.kept scale.toNat, d = 0) := by
  refine ⟨?_, parseScaled_negated_iff s unsigned powerFits fits⟩
  have present : mp.fundingRate ≠ "" := by
    rw [rate]
    exact r.text_ne_empty
  rw [emitsFunding_iff indexParses markParses present ctx recvTs seq, rate]
  exact parseScaled_exact_iff r (by decide) lower upper

/-! ## A small negative rate -/

abbrev perpetual : InstrumentDefinition := bitcoin .binanceFutures .usdmFutures

def futuresCtx : NormalizeCtx := ⟨.binanceFutures, .usdmFutures, 0, 1⟩

def markPriceEvent (rate : String) : FuturesMarkPrice where
  eventTimeMs := 1748000000000
  markPrice := "96500.50"
  indexPrice := "96501.00"
  fundingRate := rate
  nextFundingTimeMs := 1749600000000

def tenth : Numeral := ⟨false, [lastDigit 0], List.cons_ne_nil _ _, some [lastDigit 1]⟩

/-- One ten-thousandth, to be paid by the other side. -/
def smallRate : Numeral :=
  ⟨true, [lastDigit 0], List.cons_ne_nil _ _, some ([0, 0, 0, 1].map lastDigit)⟩

private theorem smallRate_scaled : smallRate.scaled 9 = -100000 := by
  rw [Numeral.scaled_eq]
  decide

private theorem tenth_scaled : tenth.scaled 9 = 100000000 := by
  rw [Numeral.scaled_eq]
  decide

private theorem markPriceEvent_parses (rate : String) :
    parseIndexPrice (markPriceEvent rate) perpetual = .ok 9650100 ∧
      parseScaled (markPriceEvent rate).markPrice perpetual.priceScale = .ok 9650050 := by
  have index : parseScaled "96501.00" 2 = .ok 9650100 := by decide
  have mark : parseScaled "96500.50" 2 = .ok 9650050 := by decide
  exact ⟨index, mark⟩

theorem funding_rates_iff_small :
    ¬EmitsFunding (markPriceEvent smallRate.text) perpetual futuresCtx 1 7 (smallRate.scaled 9) ∧
    ¬∃ v w : Int64, parseScaled tenth.text 9 = .ok v ∧
      parseScaled ("-" ++ tenth.text) 9 = .ok w ∧ w.toInt = -v.toInt := by
  have parses := markPriceEvent_parses smallRate.text
  have lower : Int64.minValue.toInt ≤ smallRate.scaled 9 := by rw [smallRate_scaled]; decide
  have upper : smallRate.scaled 9 ≤ Int64.maxValue.toInt := by rw [smallRate_scaled]; decide
  have rate : (markPriceEvent smallRate.text).fundingRate = smallRate.text := rfl
  have nine : (9 : UInt32).toNat ≤ 18 := by decide
  have fits : tenth.scaled (9 : UInt32).toNat ≤ Int64.maxValue.toInt := by
    change tenth.scaled 9 ≤ _
    rw [tenth_scaled]
    decide
  have exact := funding_rates_iff lower upper rate parses.1 parses.2 futuresCtx 1 7 rfl nine fits
  rw [exact.1, exact.2]
  decide

/-- A rate of minus one ten-thousandth is emitted as plus one ten-thousandth. -/
theorem funding_rate_sign_lost : ¬∀ (r : Numeral) (mp : FuturesMarkPrice)
    (inst : InstrumentDefinition) (index mark : Int64) (ctx : NormalizeCtx) (recvTs : Int64)
    (seq : UInt64), Int64.minValue.toInt ≤ r.scaled 9 → r.scaled 9 ≤ Int64.maxValue.toInt →
      mp.fundingRate = r.text → parseIndexPrice mp inst = .ok index →
        parseScaled mp.markPrice inst.priceScale = .ok mark →
          EmitsFunding mp inst ctx recvTs seq (r.scaled 9) := by
  intro emits
  have parses := markPriceEvent_parses "-0.0001"
  have small := emits smallRate (markPriceEvent "-0.0001") perpetual 9650100 9650050 futuresCtx 1 7
  rw [smallRate_scaled, emitsFunding_iff parses.1 parses.2 (by decide)] at small
  obtain ⟨v, parsed, negative⟩ := small (by decide) (by decide) rfl parses.1 parses.2
  have positive : parseScaled "-0.0001" 9 = .ok 100000 := by decide
  obtain rfl := Except.ok.inj (positive.symm.trans parsed)
  exact absurd negative (by decide)

end TradingConnectivity.Normalize.Futures
