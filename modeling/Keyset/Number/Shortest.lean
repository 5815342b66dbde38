import Keyset.Number.Binary64

/-!
# The fewest digits that read back

Every real number between the midpoints to a number's two neighbours rounds to that number; the
midpoints themselves do if the significand is even. `shortest` looks at decimal grids from coarse
to fine and takes the first with a point in that interval, so no decimal with fewer digits reads
back. It only has to look at the two grid points next to the number. The nearer one wins; a tie is
settled by the writer's rule.
-/
namespace Keyset

/-- Which of two equally near decimals is written. -/
inductive Tie
  | even
  | up

def Tie.takesBelow (below : Nat) : Tie → Bool
  | .even => below % 2 = 0
  | .up => false

/-- The number `digits * 10 ^ exponent`. -/
structure Digits where
  digits : Nat
  exponent : Int

namespace Digits

/-- The interval that rounds to a number, its ends and middle in quarters of `2 ^ exponent`. Below
a power of two the neighbour is only half as far. -/
structure Interval where
  low : Nat
  middle : Nat
  high : Nat
  closed : Bool

def interval (f : Binary64) : Interval :=
  let m := f.significand
  { low := if m = Nat.pow 2 52 ∧ -1074 < f.exponent then 4 * m - 1 else 4 * m - 2
    middle := 4 * m
    high := 4 * m + 2
    closed := m % 2 = 0 }

def Interval.contains (i : Interval) (unit step point : Nat) : Bool :=
  let x := point * step
  if i.closed then i.low * unit ≤ x && x ≤ i.high * unit
  else i.low * unit < x && x < i.high * unit

/-- The point of the grid `10 ^ k` to write, if one lies in the interval. `unit` and `step` bring
the interval and the grid to whole numbers. -/
def onGrid? (tie : Tie) (i : Interval) (q k : Int) : Option Nat :=
  let unit := Nat.pow 2 (q - 2).toNat * Nat.pow 10 (-k).toNat
  let step := Nat.pow 10 k.toNat * Nat.pow 2 (2 - q).toNat
  let below := i.middle * unit / step
  let above := below + 1
  match i.contains unit step below, i.contains unit step above with
  | true, true =>
    let down := i.middle * unit - below * step
    let up := above * step - i.middle * unit
    some (if down < up ∨ (down = up ∧ tie.takesBelow below) then below else above)
  | true, false => some below
  | false, true => some above
  | false, false => none

/-- The first grid with a point, from `10 ^ k` down. -/
def search (tie : Tie) (i : Interval) (q : Int) : Nat → Int → Digits
  | 0, k => ⟨0, k⟩
  | fuel + 1, k =>
    match onGrid? tie i q k with
    | some d => ⟨d, k⟩
    | none => search tie i q fuel (k - 1)

/-- A power of ten above the number: `log10 2` is a little less than `0.30103`. -/
def coarsest (f : Binary64) : Int :=
  ((f.significand.log2 : Int) + f.exponent) * 30103 / 100000 + 2

/-- The digits of a finite number other than zero. Seventeen digits always suffice, and the grid
`coarsest` lies at most two above the first digit. -/
def shortest (tie : Tie) (f : Binary64) : Digits :=
  search tie (interval f) f.exponent 24 (coarsest f)

end Digits

/-- How a finite number is written. The powers of ten of first digits that are written
positionally run from `least` to `greatest`, where absent bounds bound nothing; other numbers take
an exponent. -/
structure NumberLayout where
  least : Option Int
  greatest : Option Int
  /-- A whole number is followed by `.0`. -/
  pointZero : Bool
  /-- A positive exponent has its sign written. -/
  plus : Bool
  tie : Tie

namespace NumberLayout

def positional (l : NumberLayout) (first : Int) : Bool :=
  l.least.all (· ≤ first) && l.greatest.all (first ≤ ·)

/-- The digits with the point where their exponent puts it. -/
def writePositional (l : NumberLayout) (ds : List Char) (exponent : Int) : List Char :=
  if 0 ≤ exponent then
    ds ++ List.replicate exponent.toNat '0' ++ (if l.pointZero then ['.', '0'] else [])
  else
    let places := (-exponent).toNat
    if places < ds.length then
      ds.take (ds.length - places) ++ '.' :: ds.drop (ds.length - places)
    else '0' :: '.' :: (List.replicate (places - ds.length) '0' ++ ds)

def writeExponent (l : NumberLayout) (ds : List Char) (first : Int) : List Char :=
  ds.take 1 ++ (if ds.length ≤ 1 then [] else '.' :: ds.drop 1) ++ 'e' ::
    ((if first < 0 then ['-'] else if l.plus then ['+'] else []) ++ Nat.toDigits 10 first.natAbs)

/-- The text of a finite number. -/
def write (l : NumberLayout) (f : Binary64) : List Char :=
  (if f.negative then ['-'] else []) ++
    if f.isZero then l.writePositional ['0'] 0
    else
      let d := Digits.shortest l.tie f
      let ds := Nat.toDigits 10 d.digits
      let first := d.exponent + ds.length - 1
      if l.positional first then l.writePositional ds d.exponent
      else l.writeExponent ds first

end NumberLayout

end Keyset
