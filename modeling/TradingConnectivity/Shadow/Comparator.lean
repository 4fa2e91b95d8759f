import Mathlib.Data.Finset.Insert
import Mathlib.Data.Rat.Defs
import Mathlib.Data.UInt
import Mathlib.Algebra.Order.Field.Rat
import TradingConnectivity.ConnectorCore.Message

/-! # Shadow comparison

The comparator reads the best-bid-offer frames of the active and of the shadow connector, compares
the prices of the symbols that were updated, and decides from the accumulated statistics whether the
shadow may take over. Hash maps and sets are iterated in an arbitrary order, which is an argument of
what iterates them. Arithmetic wraps, except that the one division that overflows panics.
-/

namespace TradingConnectivity.Shadow

open ConnectorCore (NormalizedMessage)

/-- Thresholds for declaring the shadow stable; the percentage is an exact fraction. -/
structure CompareConfig where
  toleranceBps : Int64
  minSamples : UInt64
  maxDivergencePct : ℚ
deriving DecidableEq

/-- Cumulative comparison statistics of one symbol. -/
structure SymbolStats where
  symbol : String
  samples : UInt64
  divergences : UInt64
  maxBidDiffBps : Int64
  maxAskDiffBps : Int64
deriving DecidableEq, Repr

namespace SymbolStats

def new (symbol : String) : SymbolStats where
  symbol := symbol
  samples := 0
  divergences := 0
  maxBidDiffBps := 0
  maxAskDiffBps := 0

/-- Percentage of samples that exceeded the tolerance. -/
def divergencePct (stats : SymbolStats) : ℚ :=
  if stats.samples = 0 then 0
  else (stats.divergences.toNat : ℚ) / stats.samples.toNat * 100

def isAcceptable (stats : SymbolStats) (cfg : CompareConfig) : Bool :=
  stats.divergencePct ≤ cfg.maxDivergencePct

/-- One more sample with its two differences. -/
def record (stats : SymbolStats) (toleranceBps bidDiffBps askDiffBps : Int64) : SymbolStats where
  symbol := stats.symbol
  samples := stats.samples + 1
  divergences :=
    if bidDiffBps > toleranceBps ∨ askDiffBps > toleranceBps then stats.divergences + 1
    else stats.divergences
  maxBidDiffBps := max stats.maxBidDiffBps bidDiffBps
  maxAskDiffBps := max stats.maxAskDiffBps askDiffBps

end SymbolStats

inductive Verdict
  | insufficientData (samples required : UInt64)
  | stable
  | diverging (worstSymbol : String) (worstDiffBps : Int64)
deriving DecidableEq, Repr

/-- Best bid and ask price of one symbol on one stream. -/
abbrev Bbo := Int64 × Int64

/-- `activeRx` and `shadowRx` are the frames that were sent and not yet read. -/
structure Comparator where
  config : CompareConfig
  activeRx : List (List UInt8)
  shadowRx : List (List UInt8)
  activeBbo : Std.ExtTreeMap String Bbo
  shadowBbo : Std.ExtTreeMap String Bbo
  pending : Finset String
  stats : Std.ExtTreeMap String SymbolStats

/-- The symbol and the prices of a best-bid-offer frame; every other frame is skipped. -/
def bboOf? (buf : List UInt8) : Option (String × Bbo) :=
  match NormalizedMessage.fromBytes buf with
  | .ok (.bestBidOffer bbo) => some (bbo.symbol, bbo.bidPrice, bbo.askPrice)
  | _ => none

/-- The difference of two prices in basis points of the active one, without a fraction. The one
quotient that does not fit panics. -/
def diffBps (active shadow : Int64) : Option Int64 :=
  if active ≠ 0 then
    let scaled := (active - shadow).abs * 10000
    if scaled = Int64.minValue ∧ active = -1 then none else some (scaled / active)
  else some 0

namespace Comparator

def new (config : CompareConfig) : Comparator := ⟨config, [], [], ∅, ∅, ∅, ∅⟩

/-- Read all frames of one stream: the latest prices of every symbol, and which symbols had any. -/
def drain (frames : List (List UInt8)) (state : Std.ExtTreeMap String Bbo × Finset String) :
    Std.ExtTreeMap String Bbo × Finset String :=
  frames.foldl (fun state buf =>
    match bboOf? buf with
    | some (symbol, prices) => (state.1.insert symbol prices, insert symbol state.2)
    | none => state) state

def drainActive (cmp : Comparator) : Comparator :=
  let (activeBbo, pending) := drain cmp.activeRx (cmp.activeBbo, cmp.pending)
  { cmp with activeRx := [], activeBbo, pending }

def drainShadow (cmp : Comparator) : Comparator :=
  let (shadowBbo, pending) := drain cmp.shadowRx (cmp.shadowBbo, cmp.pending)
  { cmp with shadowRx := [], shadowBbo, pending }

/-- The comparison of one symbol, whose prices are looked up with a panicking index. -/
def compareSymbol (cmp : Comparator) (symbol : String) : Option Comparator := do
  let (ab, aa) ← cmp.activeBbo[symbol]?
  let (sb, sa) ← cmp.shadowBbo[symbol]?
  let bidDiffBps ← diffBps ab sb
  let askDiffBps ← diffBps aa sa
  let stats := (cmp.stats[symbol]?).getD (.new symbol)
  return { cmp with
    stats := cmp.stats.insert symbol
      (stats.record cmp.config.toleranceBps bidDiffBps askDiffBps) }

/-- The symbols of an iteration that are known on both streams. -/
def comparable (cmp : Comparator) (order : List String) : List String :=
  order.filter fun s => cmp.activeBbo.contains s && cmp.shadowBbo.contains s

/-- Compare the pending symbols, met in the given order. -/
def comparePending (cmp : Comparator) (order : List String) : Option Comparator :=
  (cmp.comparable order).foldlM compareSymbol { cmp with pending := ∅ }

/-- Drain both streams and compare the updated symbols. -/
def tick (cmp : Comparator) (order : List String) : Option Comparator :=
  cmp.drainActive.drainShadow.comparePending order

/-- The largest difference of an unacceptable symbol so far, with its symbol. -/
def worse (cfg : CompareConfig) (worst : String × Int64) (stats : SymbolStats) : String × Int64 :=
  if ¬stats.isAcceptable cfg then
    let diff := max stats.maxBidDiffBps stats.maxAskDiffBps
    if diff > worst.2 then (stats.symbol, diff) else worst
  else worst

/-- The current verdict, from the statistics in the given order of symbols. -/
def verdict (cmp : Comparator) (order : List String) : Verdict :=
  let values := order.filterMap (cmp.stats[·]?)
  let total := (values.map SymbolStats.samples).sum
  if total < cmp.config.minSamples then .insufficientData total cmp.config.minSamples
  else
    let (worstSymbol, worstDiffBps) := values.foldl (worse cmp.config) ("", 0)
    if worstSymbol ≠ "" then .diverging worstSymbol worstDiffBps else .stable

end Comparator

end TradingConnectivity.Shadow
