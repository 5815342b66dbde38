import Keyset.Number.Integer
import Mathlib.Algebra.Group.Int.Defs
import Mathlib.Algebra.Group.Nat.Defs

/-! # Numbers counted in units of the least one

Every finite number is a whole multiple of `2 ^ -places`, so that finite
numbers and integers all become integers when counted in this unit (`units`).
Bit patterns are ordered as their units are (`units_mono`), and to compare two
numbers is to compare their units (`less_iff`). The infinities count for what
the patterns would denote if they were finite, more than any number. -/

namespace Keyset.Binary64

/-- The least positive number is `2 ^ -places`. -/
def places : Nat := 1074

/-- What a magnitude counts for, in units of the least positive number. -/
def scale (m : Nat) : Nat :=
  (if m < 2 ^ 52 then m else 2 ^ 52 + m % 2 ^ 52) * 2 ^ (max (m / 2 ^ 52) 1 - 1)

/-- A finite number in these units. -/
def units (f : Binary64) : Int :=
  if f.negative then -(scale f.magnitude : Int) else scale f.magnitude

/-! ## Magnitudes -/

theorem scale_lt (m : Nat) : scale m < 2 ^ 52 * 2 ^ (m / 2 ^ 52) := by
  unfold scale
  split
  · rename_i hm
    have hq : m / 2 ^ 52 = 0 := Nat.div_eq_of_lt hm
    rw [hq]
    simpa using hm
  · rename_i hm
    obtain ⟨q, hq⟩ : ∃ q, m / 2 ^ 52 = q + 1 := ⟨m / 2 ^ 52 - 1, by omega⟩
    have hr : m % 2 ^ 52 < 2 ^ 52 := Nat.mod_lt _ (by decide)
    rw [hq, Nat.max_eq_left (by omega), Nat.add_sub_cancel]
    calc (2 ^ 52 + m % 2 ^ 52) * 2 ^ q < 2 ^ 52 * 2 * 2 ^ q :=
          Nat.mul_lt_mul_of_pos_right (by omega) (Nat.two_pow_pos q)
      _ = 2 ^ 52 * 2 ^ (q + 1) := by rw [Nat.mul_assoc, Nat.pow_succ' (n := q)]

theorem le_scale {m : Nat} (h : 2 ^ 52 ≤ m) : 2 ^ 52 * 2 ^ (m / 2 ^ 52 - 1) ≤ scale m := by
  unfold scale
  rw [if_neg (by omega), Nat.max_eq_left (by omega)]
  exact Nat.mul_le_mul_right _ (by omega)

theorem scale_lt_scale {m n : Nat} (h : m < n) : scale m < scale n := by
  have hq : m / 2 ^ 52 ≤ n / 2 ^ 52 := Nat.div_le_div_right (Nat.le_of_lt h)
  by_cases he : m / 2 ^ 52 = n / 2 ^ 52
  · -- the same power of two on both sides, so the fractions decide
    unfold scale
    rw [he]
    apply Nat.mul_lt_mul_of_pos_right _ (Nat.two_pow_pos _)
    split <;> split <;> omega
  · have hn : 2 ^ 52 ≤ n := by omega
    calc scale m < 2 ^ 52 * 2 ^ (m / 2 ^ 52) := scale_lt m
      _ ≤ 2 ^ 52 * 2 ^ (n / 2 ^ 52 - 1) :=
        Nat.mul_le_mul_left _ (Nat.pow_le_pow_right (by decide) (by omega))
      _ ≤ scale n := le_scale hn

theorem scale_zero : scale 0 = 0 := rfl

/-! ## Signed numbers -/

theorem rank_of_negative {f : Binary64} (h : f.negative = true) :
    f.rank = -1 - (f.magnitude : Int) := by simp [rank, h]

theorem rank_of_not_negative {f : Binary64} (h : f.negative = false) :
    f.rank = f.magnitude := by simp [rank, h]

theorem units_of_negative {f : Binary64} (h : f.negative = true) :
    f.units = -(scale f.magnitude : Int) := by simp [units, h]

theorem units_of_not_negative {f : Binary64} (h : f.negative = false) :
    f.units = scale f.magnitude := by simp [units, h]

theorem rank_le_magnitude (f : Binary64) : f.rank ≤ f.magnitude := by
  unfold rank
  split <;> omega

theorem magnitude_le_rank (f : Binary64) : -1 - (f.magnitude : Int) ≤ f.rank := by
  unfold rank
  split <;> omega

theorem negative_of_rank_lt {f g : Binary64} (h : f.rank < g.rank) (hg : g.negative = true) :
    f.negative = true := by
  cases hf : f.negative with
  | true => rfl
  | false =>
    rw [rank_of_not_negative hf, rank_of_negative hg] at h
    omega

theorem units_lt_units {f g : Binary64} (h : f.rank < g.rank)
    (hzero : f.isZero = true → g.isZero = false) : f.units < g.units := by
  cases hf : f.negative <;> cases hg : g.negative
  · rw [rank_of_not_negative hf, rank_of_not_negative hg] at h
    rw [units_of_not_negative hf, units_of_not_negative hg]
    exact Int.ofNat_lt.mpr (scale_lt_scale (Int.ofNat_lt.mp h))
  · rw [negative_of_rank_lt h hg] at hf
    cases hf
  · rw [units_of_negative hf, units_of_not_negative hg]
    -- one of the two magnitudes is not zero and counts for more than nothing
    simp only [isZero, decide_eq_true_eq, decide_eq_false_iff_not] at hzero
    by_cases hm : f.magnitude = 0
    · have hpos := scale_lt_scale (Nat.pos_of_ne_zero (hzero hm))
      rw [scale_zero] at hpos
      omega
    · have hpos := scale_lt_scale (Nat.pos_of_ne_zero hm)
      rw [scale_zero] at hpos
      omega
  · rw [rank_of_negative hf, rank_of_negative hg] at h
    rw [units_of_negative hf, units_of_negative hg]
    have hlt := scale_lt_scale (m := g.magnitude) (n := f.magnitude) (by omega)
    omega

theorem units_eq_zero {f : Binary64} (h : f.isZero = true) : f.units = 0 := by
  simp only [isZero, decide_eq_true_eq] at h
  simp [units, h, scale_zero]

theorem units_mono {f g : Binary64} (h : f.rank ≤ g.rank) : f.units ≤ g.units := by
  rcases Int.lt_or_eq_of_le h with h | h
  · by_cases hzero : f.isZero = true ∧ g.isZero = true
    · exact Int.le_of_eq ((units_eq_zero hzero.1).trans (units_eq_zero hzero.2).symm)
    · exact Int.le_of_lt (units_lt_units h fun hf => by simpa [hf] using hzero)
  · exact Int.le_of_eq (congrArg units (eq_of_rank_eq h))

theorem less_iff {f g : Binary64} (hf : f.isNaN = false) (hg : g.isNaN = false) :
    f.less g = true ↔ f.units < g.units := by
  have hless : f.less g = true ↔ (f.isZero = true → g.isZero = false) ∧ f.rank < g.rank := by
    cases hz : f.isZero <;> simp [less, hf, hg, hz]
  rw [hless]
  refine ⟨fun h => units_lt_units h.2 h.1, fun h => ⟨fun hz => ?_, ?_⟩⟩
  · rw [Bool.eq_false_iff]
    intro hz'
    rw [units_eq_zero hz, units_eq_zero hz'] at h
    exact Int.lt_irrefl 0 h
  · refine Int.lt_of_not_ge fun hle => ?_
    exact Int.not_lt.mpr (units_mono hle) h

end Keyset.Binary64
