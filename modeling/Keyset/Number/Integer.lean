import Keyset.Number.Binary64

/-!
# Integers among floating point numbers

An integer of 128 bits is compared with a number by exact value. Within the range of such integers
the whole part of the number is one of them and is compared first; the places behind the point
decide what is left. Numbers outside of the range are all greater or all less.
-/
namespace Keyset.Binary64

/-- Comparison as numbers: the two zeros are one number, and a NaN is not less than anything, nor
is anything less than it. -/
def less (f g : Binary64) : Bool :=
  !f.isNaN && !g.isNaN && !(f.isZero && g.isZero) && f.rank < g.rank

def neg (f : Binary64) : Binary64 := ofMagnitude (!f.negative) f.magnitude

/-- `2 ^ 127`, the first number above all integers of 128 bits. -/
def int128Limit : Binary64 := ⟨0x47E0000000000000⟩

/-- The number without its places behind the point, which are the last bits of the fraction. Of a
number below one nothing but the sign is left. -/
def truncated (f : Binary64) : Binary64 :=
  let exponent := f.magnitude / Nat.pow 2 52
  ofMagnitude f.negative <|
    if exponent < 1023 then 0 else f.magnitude - f.magnitude % Nat.pow 2 (1075 - exponent)

/-- The whole part of a finite number. -/
def whole (f : Binary64) : Int :=
  let n := f.significand * Nat.pow 2 f.exponent.toNat / Nat.pow 2 (-f.exponent).toNat
  if f.negative then -(n : Int) else n

/-- The whole part as an integer of 128 bits. What does not fit becomes the last integer on its
side, and a NaN becomes zero. -/
def toInt128 (f : Binary64) : BitVec 128 :=
  if f.isNaN then 0
  else .ofInt 128 (max (BitVec.intMin 128).toInt (min f.whole (BitVec.intMax 128).toInt))

/-- An integer against a number, by exact value; an integer comes before an equal number. -/
def compareInteger (n : BitVec 128) (f : Binary64) : Ordering :=
  if f.isNaN then
    if f.negative then .gt else .lt
  else if !f.less int128Limit then .lt
  else if f.less int128Limit.neg then .gt
  else
    match compare n.toInt f.truncated.toInt128.toInt with
    | .eq => if f.less f.truncated then .gt else .lt
    | o => o

end Keyset.Binary64
