import Keyset.Number.Binary64

/-!
# Decimal numerals and the nearest number

`Decimal` is `± coefficient * 10 ^ exponent`. `Decimal.nearest` is the closest `Binary64`, the one
with an even significand if two are equally close; what lies beyond the largest number becomes
infinite. All arithmetic is exact.
-/
namespace Keyset

structure Decimal where
  negative : Bool
  coefficient : Nat
  exponent : Int
  deriving DecidableEq, Repr

namespace Decimal

/-- The exponent part of a numeral: nothing, or `e`, an optional sign and digits. -/
def exponent? : List Char → Option Int
  | [] => some 0
  | c :: cs =>
    if c = 'e' ∨ c = 'E' then
      match cs with
      | '+' :: ds => run ds
      | '-' :: ds => (run ds).map (- ·)
      | ds => run ds
    else none
where
  run (ds : List Char) : Option Int :=
    if ds ≠ [] ∧ ds.all Char.isDigit then some (Nat.ofDigitChars 10 ds 0) else none

/-- A numeral without its sign. There is a digit before or after the point. -/
def unsigned? (negative : Bool) (cs : List Char) : Option Decimal := do
  let whole := cs.takeWhile Char.isDigit
  let rest := cs.dropWhile Char.isDigit
  let (fraction, rest) := match rest with
    | '.' :: ds => (ds.takeWhile Char.isDigit, ds.dropWhile Char.isDigit)
    | rest => ([], rest)
  let exponent ← exponent? rest
  if (whole ++ fraction).isEmpty then none
  else some ⟨negative, Nat.ofDigitChars 10 (whole ++ fraction) 0, exponent - fraction.length⟩

/-- A numeral such as `-12`, `.5`, `5.`, `+1e3`. -/
def read? : List Char → Option Decimal
  | '-' :: cs => unsigned? true cs
  | '+' :: cs => unsigned? false cs
  | cs => unsigned? false cs

end Decimal

/-- The quotient to the nearest natural number, a half to the even one. -/
def roundHalfEven (num den : Nat) : Nat :=
  let rest := 2 * (num % den)
  if rest < den ∨ (rest = den ∧ num / den % 2 = 0) then num / den else num / den + 1

/-- The magnitude nearest to `num / den`, for positive arguments. A significand that rounds up to
`2 ^ 53` carries into the exponent by itself. -/
def nearestMagnitude (num den : Nat) : Nat :=
  let top : Int := (num.log2 : Int) - den.log2
  let top := if den * Nat.pow 2 top.toNat ≤ num * Nat.pow 2 (-top).toNat then top else top - 1
  let unit := max (top - 52) (-1074)
  let m := roundHalfEven (num * Nat.pow 2 (-unit).toNat) (den * Nat.pow 2 unit.toNat)
  min ((unit + 1074).toNat * Nat.pow 2 52 + m) Binary64.infinity

/-- Exponents far beyond the range of numbers are settled before any power is computed: from
`10 ^ 400` on all is infinite, and below `10 ^ -400` all is zero. -/
def Decimal.nearest (d : Decimal) : Binary64 :=
  .ofMagnitude d.negative <|
    if d.coefficient = 0 ∨ d.coefficient.log2 + 1 + d.exponent < -400 then 0
    else if 400 < d.exponent then Binary64.infinity
    else nearestMagnitude (d.coefficient * Nat.pow 10 d.exponent.toNat)
      (Nat.pow 10 (-d.exponent).toNat)

/-- The number a numeral denotes, unless it is too large for a finite one. -/
def Binary64.read? (cs : List Char) : Option Binary64 :=
  ((Decimal.read? cs).map Decimal.nearest).filter Binary64.isFinite

end Keyset
