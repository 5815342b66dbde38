/-!
# Binary floating point numbers

A number is its 64 bits: a sign, an exponent field and a fraction. `magnitude` is what is left
without the sign; it grows with the absolute value, so the order of all bit patterns, NaNs
included, is an order of integers. A finite number is exactly `± significand * 2 ^ exponent`.
-/
namespace Keyset

structure Binary64 where
  bits : UInt64
  deriving DecidableEq, Repr

namespace Binary64

def negative (f : Binary64) : Bool := Nat.pow 2 63 ≤ f.bits.toNat

def magnitude (f : Binary64) : Nat := f.bits.toNat % Nat.pow 2 63

/-- The magnitude of the infinities; NaNs lie above it and finite numbers below. -/
def infinity : Nat := 0x7FF0000000000000

def isNaN (f : Binary64) : Bool := infinity < f.magnitude

def isFinite (f : Binary64) : Bool := f.magnitude < infinity

def isZero (f : Binary64) : Bool := f.magnitude = 0

def ofMagnitude (negative : Bool) (n : Nat) : Binary64 :=
  ⟨UInt64.ofNat (if negative then Nat.pow 2 63 + n else n)⟩

/-- Below `2 ^ 52` the magnitude is the significand; above, a leading one joins the fraction. -/
def significand (f : Binary64) : Nat :=
  if f.magnitude < Nat.pow 2 52 then f.magnitude
  else Nat.pow 2 52 + f.magnitude % Nat.pow 2 52

def exponent (f : Binary64) : Int := Int.ofNat (max (f.magnitude / Nat.pow 2 52) 1) - 1075

/-- Equality of numbers: the two zeros are equal and a NaN equals nothing. -/
def sameNumber (f g : Binary64) : Bool :=
  !f.isNaN && !g.isNaN && (f.bits == g.bits || (f.isZero && g.isZero))

/-- The place in the total order of bit patterns: negative NaNs, `-∞`, …, `-0`, `0`, …, `∞` and
NaNs. -/
def rank (f : Binary64) : Int :=
  if f.negative then -1 - (f.magnitude : Int) else f.magnitude

theorem magnitude_lt (f : Binary64) : f.magnitude < Nat.pow 2 63 :=
  Nat.mod_lt _ (by decide)

theorem bits_toNat (f : Binary64) :
    f.bits.toNat = (if f.negative then Nat.pow 2 63 else 0) + f.magnitude := by
  have h := f.bits.toNat_lt
  simp only [negative, magnitude, decide_eq_true_eq, Nat.pow_eq]
  split <;> omega

theorem eq_of_rank_eq {f g : Binary64} (h : f.rank = g.rank) : f = g := by
  have hf := bits_toNat f
  have hg := bits_toNat g
  simp only [rank] at h
  have hb : f.bits.toNat = g.bits.toNat := by
    split at h <;> split at h <;> simp_all <;> omega
  cases f
  cases g
  exact congrArg mk (UInt64.toNat_inj.1 hb)

end Binary64

end Keyset
