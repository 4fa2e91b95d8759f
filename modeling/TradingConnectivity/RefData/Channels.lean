import TradingConnectivity.Normalize.Pipelines
import TradingConnectivity.RefData.Normalizer

/-! # One price on three channels

A price reaches the book from a REST snapshot, in a JSON event or in an SBE event. Where nothing
overflows it is the same integer on all three, so that a delta removes the level a snapshot
inserted.
-/

namespace TradingConnectivity.RefData

open Decimal
open Normalize (Prints Failure scale_le_of_power_fits toInt_toScaled parseScaled_printed)
open Normalize.Sbe (Decimal64)

/-- The decimal with all of its eight places. -/
def printed (d : Decimal64) : String := (Numeral.ofMantissa d.mantissa.toInt.toNat 8).text

private theorem prints_printed {d : Decimal64} (nonneg : 0 ≤ d.mantissa.toInt) : Prints
    (printed d) d := by
  refine ⟨_, rfl, rfl, Numeral.length_ofMantissa _ _, ?_⟩
  rw [Numeral.mantissa_ofMantissa, Int.toNat_of_nonneg nonneg]

/-- REST, JSON and SBE lead to the same integer. -/
theorem channels_agree {text : String} {d : Decimal64} {scale : UInt32} (prints : Prints text d)
    (fits : d.Fits scale) :
    Normalize.Spot.parseScaled text scale = .ok (d.toScaled scale) ∧
      parseScaled text scale = .ok (d.toScaled scale) := by
  refine ⟨parseScaled_printed prints fits, ?_⟩
  obtain ⟨numeral, rfl, unsigned, places, mantissa⟩ := prints
  have exact := Normalize.scaled_printed unsigned places mantissa scale.toNat
  obtain ⟨v, parsed, value⟩ := parseScaled_unsigned numeral unsigned
    (scale_le_of_power_fits fits.1) (exact ▸ fits.2)
  have same : v.toInt = (d.toScaled scale).toInt := by
    rw [value, exact, toInt_toScaled (by omega) fits]
  rw [parsed, Int64.toInt_inj.mp same]

def price : Decimal64 := ⟨9650050000000⟩

theorem channels_agree_price : Normalize.Spot.parseScaled (printed price) 2 = .ok 9650050 ∧
    parseScaled (printed price) 2 = .ok 9650050 := by
  have fits : price.Fits 2 := by
    have power : (10 : ℤ) ^ (2 : UInt32).toNat = 100 := rfl
    rw [Decimal64.Fits, power]
    decide
  exact channels_agree (prints_printed (by decide)) fits

end TradingConnectivity.RefData
