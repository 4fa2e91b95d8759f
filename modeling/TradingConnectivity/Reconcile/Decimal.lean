import Mathlib.Data.Int.Notation
import Mathlib.Data.Nat.Notation

/-! # Scaled decimals

The REST responses and the user-data stream carry quantities and prices as decimal strings, which
are parsed into integers scaled by a power of ten. Strings are read character by character; cutting
a string inside a multi-byte character would panic and is the outcome `none`.
-/

namespace TradingConnectivity.Reconcile

inductive NormalizerError
  | unknownSide (raw : String)
  | unknownOrderType (raw : String)
  | unknownTimeInForce (raw : String)
  | invalidDecimal (raw : String)
deriving DecidableEq, Repr

/-- A parse ends in a value or an error, unless it panics. -/
abbrev Parsed := ExceptT NormalizerError Option

/-- Price and quantity scale factors of one symbol. -/
structure SymbolScales where
  priceScale : Int64
  qtyScale : Int64
deriving DecidableEq, Repr

/-- The characters that trimming a string removes. -/
def isWhitespace (c : Char) : Bool :=
  (9 ≤ c.toNat && c.toNat ≤ 13) || (0x2000 ≤ c.toNat && c.toNat ≤ 0x200A) ||
    [0x20, 0x85, 0xA0, 0x1680, 0x2028, 0x2029, 0x202F, 0x205F, 0x3000].contains c.toNat

/-- Remove whitespace at both ends. -/
def trim (s : List Char) : List Char :=
  ((s.dropWhile isWhitespace).reverse.dropWhile isWhitespace).reverse

/-- A signed 64-bit integer in base ten: an optional sign, at least one digit, no overflow. -/
def parseInt64 (s : List Char) : Option Int64 :=
  let (negative, digits) :=
    match s with
    | '-' :: rest => (true, rest)
    | '+' :: rest => (false, rest)
    | _ => (false, s)
  if digits = [] ∨ ¬digits.all Char.isDigit then none
  else
    let magnitude : ℤ := digits.foldl (fun value c => value * 10 + (c.toNat - 48 : ℤ)) 0
    let value := if negative then -magnitude else magnitude
    if Int64.minValue.toInt ≤ value ∧ value ≤ Int64.maxValue.toInt then some (Int64.ofInt value)
    else none

/-- How often a scale can be divided by ten until one is left; a 64-bit scale allows 19 times. -/
def scaleDigits (scale : Int64) : ℕ := divisions 19 scale.toInt
where
  divisions : ℕ → ℤ → ℕ
    | 0, _ => 0
    | fuel + 1, tmp => if tmp > 1 then divisions fuel (tmp / 10) + 1 else 0

/-- The first bytes of a string, unless they end inside a character. -/
def takeBytes : ℕ → List Char → Option (List Char)
  | 0, _ => some []
  | _ + 1, [] => some []
  | n + 1, c :: rest =>
    if c.utf8Size ≤ n + 1 then (takeBytes (n + 1 - c.utf8Size) rest).map (c :: ·) else none

/-- The length of a string in bytes. -/
def byteLength (s : List Char) : ℕ := s.foldr (fun c length => c.utf8Size + length) 0

/-- The part before the point as an integer; it may be missing. -/
def parseInteger (decimal : String) (int : List Char) : Parsed Int64 :=
  if int = [] then pure 0
  else
    match parseInt64 int with
    | none => throw (.invalidDecimal decimal)
    | some value => pure value

/-- The fraction as an integer: padded with zeros or truncated to the digits of the scale. -/
def parseFraction (decimal : String) (digits : ℕ) (frac : List Char) : Parsed Int64 :=
  if frac = [] then pure 0
  else do
    let available := min (byteLength frac) digits
    let kept ← ExceptT.lift (takeBytes available frac)
    match parseInt64 (kept ++ List.replicate (digits - available) '0') with
    | none => throw (.invalidDecimal decimal)
    | some value => pure value

/-- Parse a decimal string into an integer scaled by a power of ten; excess digits are truncated. -/
def parseScaled (decimal : String) (scale : Int64) : Parsed Int64 :=
  let s := trim decimal.toList
  if s = [] then throw (.invalidDecimal decimal)
  else do
    let int := s.takeWhile (· ≠ '.')
    let frac := (s.dropWhile (· ≠ '.')).drop 1
    let intVal ← parseInteger decimal int
    let fracVal ← parseFraction decimal (scaleDigits scale) frac
    return intVal * scale + fracVal

example : parseScaled "0.00500000" 100000000 = pure 500000 := rfl

end TradingConnectivity.Reconcile
