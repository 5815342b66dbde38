import Keyset.Proofs.Number.Nearest
import Keyset.Proofs.Value.Distinct
import Mathlib.Data.EReal.Basic

/-! # Integers and floating point numbers in one order

A finite number is a rational number (`Binary64.rational`) and the infinities
are the ends of the extended real line (`Binary64.extended`). Integers of either
kind are placed among them by exact value, each before the number that equals it,
and the NaNs go to the ends by their signs (`order_integer_exact`). On the way an
integer is only widened, and the whole part of a number always fits. -/

namespace Keyset

namespace Binary64

/-- What a finite number is. -/
def rational (f : Binary64) : ℚ :=
  (if f.negative then -1 else 1) * f.significand * 2 ^ f.exponent

/-- The place of a number, infinite or not, on the extended real line. -/
noncomputable def extended (f : Binary64) : EReal :=
  if f.isFinite then ((f.rational : ℝ) : EReal) else if f.negative then ⊥ else ⊤

theorem rational_eq (f : Binary64) : f.rational = f.units / 2 ^ places := by
  obtain ⟨k, hk, hscale⟩ := f.scale_eq
  have hpow : (2 : ℚ) ^ f.exponent = 2 ^ f.exponent.toNat * 2 ^ k / 2 ^ places := by
    have hdiv := zpow_eq_div (b := 2) (by decide) f.exponent
    push_cast at hdiv
    rw [hdiv, hk, pow_add]
    field_simp
  rw [rational, hpow, units, hscale]
  cases f.negative <;> simp <;> ring

theorem rational_nonneg_iff {f : Binary64} : 0 ≤ f.rational ↔ 0 ≤ f.units := by
  rw [rational_eq, le_div_iff₀ (by positivity), zero_mul]
  exact Int.cast_nonneg_iff

theorem le_rational_iff {f : Binary64} {n : Int} :
    (n : ℚ) ≤ f.rational ↔ n * 2 ^ places ≤ f.units := by
  rw [rational_eq, le_div_iff₀ (by positivity)]
  exact_mod_cast Iff.rfl

/-- The quotient toward zero is the number rounded toward zero. -/
theorem tdiv_eq (f : Binary64) : f.units.tdiv (2 ^ places) =
    if 0 ≤ f.rational then ⌊f.rational⌋ else ⌈f.rational⌉ := by
  have hfloor (a : Int) : ⌊(a / 2 ^ places : ℚ)⌋ = a / 2 ^ places := by
    have hdiv := Rat.floor_intCast_div_natCast a (2 ^ places)
    push_cast at hdiv
    exact hdiv
  by_cases h : 0 ≤ f.units
  · rw [if_pos (rational_nonneg_iff.mpr h), Int.tdiv_eq_ediv_of_nonneg h, rational_eq, hfloor]
  · have hneg : -f.rational = ((-f.units : Int) : ℚ) / 2 ^ places := by
      rw [rational_eq, Int.cast_neg, neg_div]
    rw [if_neg (mt rational_nonneg_iff.mp h), ← neg_neg f.rational, Int.ceil_neg, hneg, hfloor,
      ← Int.tdiv_eq_ediv_of_nonneg (by omega), Int.neg_tdiv, neg_neg]

/-- The whole part is taken exactly, and is an integer of 128 bits as it stands. -/
theorem truncated_exact {f : Binary64} (h : f.Within) :
    f.truncated.toInt128.toInt = (if 0 ≤ f.rational then ⌊f.rational⌋ else ⌈f.rational⌉) ∧
      f.truncated.rational = f.truncated.toInt128.toInt := by
  have hpos : (2 : ℚ) ^ places ≠ 0 := by positivity
  rw [toInt_truncated h]
  refine ⟨tdiv_eq f, ?_⟩
  rw [rational_eq, units_truncated]
  push_cast
  exact mul_div_cancel_right₀ _ hpos

theorem compareInteger_extended {f : Binary64} (h : f.isNaN = false) (n : BitVec 128) :
    compareInteger n f = if ((n.toInt : ℝ) : EReal) ≤ f.extended then .lt else .gt := by
  cases hf : f.isFinite with
  | true =>
    have hle : ((n.toInt : ℝ) : EReal) ≤ f.extended ↔ n.toInt * 2 ^ places ≤ f.units := by
      rw [extended, if_pos hf, EReal.coe_le_coe_iff, ← le_rational_iff]
      exact_mod_cast Iff.rfl
    rw [compareInteger_eq h]
    simp only [hle]
  | false =>
    rw [compareInteger_of_not_finite hf, extended, hf, if_neg Bool.false_ne_true]
    cases f.negative <;> simp

end Binary64

namespace Value

/-- The number that an integer value is. -/
def integer? : Value → Option Int
  | .int n => some n.toInt
  | .uint n => some n.toNat
  | _ => none

theorem sortKey_of_integer {v : Value} {n : Int} (h : v.integer? = some n) :
    ∃ w, v.sortKey = .integer w ∧ w.toInt = n := by
  cases v with
  | int m => exact ⟨_, rfl, (toInt_signed m).trans (Option.some.inj h)⟩
  | uint m => exact ⟨_, rfl, (toInt_unsigned m).trans (Option.some.inj h)⟩
  | _ => cases h

/-- **Integers and floating point numbers compare exactly.** An integer of either kind comes after
the negative NaNs and before the others. To any other number it compares as to its place on the
extended real line, and comes before the number that equals it; seen from the number the comparison
is the reverse. The integer is widened without a loss, and where the whole part of the number is
looked at, it is the number rounded toward zero and fits. -/
theorem order_integer_exact {v : Value} {n : Int} (integer : v.integer? = some n) (f : Binary64) :
    (f.isNaN = true → v.order (.float f) = if f.negative then .gt else .lt) ∧
    (f.isNaN = false →
      v.order (.float f) = if ((n : ℝ) : EReal) ≤ f.extended then .lt else .gt) ∧
    (Value.float f).order v = (v.order (.float f)).swap ∧
    (∃ w, v.sortKey = .integer w ∧ w.toInt = n) ∧
    (f.Within → f.truncated.toInt128.toInt =
        (if 0 ≤ f.rational then ⌊f.rational⌋ else ⌈f.rational⌉) ∧
      f.truncated.rational = f.truncated.toInt128.toInt) := by
  obtain ⟨w, hkey, hword⟩ := sortKey_of_integer integer
  have horder : v.order (.float f) = f.compareInteger w := by rw [order, hkey]; rfl
  refine ⟨fun hnan => ?_, fun hnumber => ?_, Std.OrientedCmp.eq_swap, ⟨w, hkey, hword⟩,
    Binary64.truncated_exact⟩
  · rw [horder, Binary64.compareInteger, if_pos hnan]
  · rw [horder, Binary64.compareInteger_extended hnumber, hword]

/-- The greatest integer, and the number nearest to it, which is greater by one. -/
theorem order_integer_exact_greatest :
    let v := Value.uint 18446744073709551615
    let f : Binary64 := ⟨0x43F0000000000000⟩
    v.integer? = some 18446744073709551615 ∧ v.order (.float f) = .lt ∧
      (Value.float f).order v = .gt ∧ f.truncated.toInt128.toInt = 18446744073709551616 := by
  intro v f
  obtain ⟨-, hnumber, hswap, -, hwhole⟩ :=
    order_integer_exact (v := v) (n := 18446744073709551615) rfl f
  have hrational : f.rational = 18446744073709551616 := by
    have hnegative : f.negative = false := by decide
    have hsignificand : f.significand = 2 ^ 52 := by decide
    have hexponent : f.exponent = 12 := by decide
    rw [Binary64.rational, hnegative, hsignificand, hexponent]
    norm_num
  have hle : (((18446744073709551615 : Int) : ℝ) : EReal) ≤ f.extended := by
    have hfinite : f.isFinite = true := by decide
    rw [Binary64.extended, if_pos hfinite, hrational, EReal.coe_le_coe_iff]
    norm_num
  have hless : v.order (.float f) = .lt := (hnumber (by decide)).trans (if_pos hle)
  refine ⟨rfl, hless, by rw [hswap, hless]; rfl, ?_⟩
  rw [(hwhole ⟨by decide, by decide, by decide⟩).1, hrational]
  norm_num

end Value

end Keyset
