import Keyset.Proofs.Number.Whole

/-! # Numbers compared by exact value

The comparison of an integer with a number looks at whole parts first and then
at what stands behind the point; together this is a comparison of units
(`compareInteger_eq`). The list `figures` puts integers and numbers into one
order of lists: `compare_figures` for two numbers and `compare_figures_integer`
for an integer and a number. -/

namespace Keyset.Binary64

/-- If an integer is the quotient toward zero, the remainder decides; else the quotient does. -/
theorem compare_tdiv (n a : Int) {b : Int} (hb : 0 < b) :
    (match compare n (a.tdiv b) with
      | .eq => if a < a.tdiv b * b then .gt else .lt
      | o => o) = if n * b ≤ a then Ordering.lt else .gt := by
  have hsplit : a.tdiv b * b + a.tmod b = a := by
    rw [Int.mul_comm]
    exact Int.mul_tdiv_add_tmod a b
  have hlow := Int.lt_tmod_of_pos a hb
  have hhigh := Int.tmod_lt_of_pos a hb
  generalize a.tdiv b = q at hsplit ⊢
  have hstep {m k : Int} (h : m < k) : m * b + b ≤ k * b := by
    rw [← Int.one_mul b, ← Int.mul_assoc, ← Int.add_mul, Int.one_mul, Int.mul_one]
    exact Int.mul_le_mul_of_nonneg_right h (Int.le_of_lt hb)
  rcases Int.lt_trichotomy n q with h | rfl | h
  · have hle := hstep h
    simp only [Int.compare_eq_lt.mpr h]
    rw [if_pos (by omega)]
  · rw [Int.compare_eq_eq.mpr rfl]
    by_cases ha : a < n * b
    · simp [ha]
    · simp [ha, Int.not_lt.mp ha]
  · have hle := hstep h
    simp only [Int.compare_eq_gt.mpr h]
    rw [if_neg (by omega)]

theorem integer_bounds (n : BitVec 128) : -2 ^ 127 * 2 ^ places ≤ n.toInt * 2 ^ places ∧
    n.toInt * 2 ^ places < 2 ^ 127 * 2 ^ places := by
  have hpos : (0 : Int) < 2 ^ places := Int.pow_pos (by decide)
  exact ⟨Int.mul_le_mul_of_nonneg_right n.le_toInt (Int.le_of_lt hpos),
    Int.mul_lt_mul_of_pos_right BitVec.toInt_lt hpos⟩

/-- An integer and a number compare as their units do, the integer first if they are equal. -/
theorem compareInteger_eq {f : Binary64} (h : f.isNaN = false) (n : BitVec 128) :
    compareInteger n f = if n.toInt * 2 ^ places ≤ f.units then .lt else .gt := by
  obtain ⟨hlow, hhigh⟩ := integer_bounds n
  simp only [compareInteger, h, Bool.false_eq_true, if_false]
  by_cases hless : f.less int128Limit = true
  · by_cases hbelow : f.less int128Limit.neg = true
    · have hunits := (less_neg_limit_iff h).mp hbelow
      simp only [hless, hbelow, Bool.not_true, Bool.false_eq_true, if_false, if_true]
      rw [if_neg (by omega)]
    · -- the number has a whole part of 128 bits
      have hwithin : f.Within := ⟨h, hless, Bool.eq_false_iff.mpr hbelow⟩
      have hbehind : f.less f.truncated = true ↔
          f.units < f.units.tdiv (2 ^ places) * 2 ^ places := by
        rw [less_iff h (isNaN_truncated h), units_truncated]
      simp only [hless, hbelow, Bool.not_true, Bool.false_eq_true, if_false, hbehind,
        toInt_truncated hwithin]
      exact compare_tdiv n.toInt f.units (Int.pow_pos (by decide))
  · have hunits := Int.not_lt.mp (mt (less_limit_iff h).mpr hless)
    simp only [hless, Bool.not_false, if_true]
    rw [if_pos (by omega)]

theorem isNaN_of_isFinite {f : Binary64} (h : f.isFinite = true) : f.isNaN = false := by
  simp only [isFinite, isNaN, decide_eq_true_eq, decide_eq_false_iff_not] at h ⊢
  omega

theorem units_of_infinite {f : Binary64} (hnumber : f.isNaN = false) (h : f.isFinite = false) :
    f.units = if f.negative then -2 ^ (127 + 897 + places) else 2 ^ (127 + 897 + places) := by
  simp only [isFinite, isNaN, decide_eq_false_iff_not] at hnumber h
  have hmagnitude : f.magnitude = (2046 + 1) * 2 ^ 52 := by
    have hinfinity : infinity = (2046 + 1) * 2 ^ 52 := by decide
    omega
  have hexponent : 52 + 2046 = 127 + 897 + places := rfl
  rw [units, hmagnitude, scale_pow, hexponent, Int.natCast_pow]
  rfl

/-- The infinities and the NaNs lie beyond all integers. -/
theorem compareInteger_of_not_finite {f : Binary64} (h : f.isFinite = false) (n : BitVec 128) :
    compareInteger n f = if f.negative then .gt else .lt := by
  cases hnumber : f.isNaN with
  | true => simp only [compareInteger, hnumber, if_true]
  | false =>
    obtain ⟨hlow, hhigh⟩ := integer_bounds n
    have hbeyond : (2 : Int) ^ 127 * 2 ^ places < 2 ^ (127 + 897 + places) := by
      rw [← Int.pow_add]
      exact Int.pow_lt_pow_of_lt (by decide) (by omega)
    rw [compareInteger_eq hnumber, units_of_infinite hnumber h]
    cases f.negative with
    | true => exact if_neg (by simp only [if_true]; omega)
    | false => exact if_pos (by simp only [Bool.false_eq_true, if_false]; omega)

/-! ## One order for integers and numbers -/

/-- Where a number lies to the finite ones. -/
def side (f : Binary64) : Int :=
  if f.isFinite then 0 else if f.negative then -1 else 1

/-- What decides the place of a number, the most important first. The third
figure of a finite number is greater than that of an integer, which is zero. -/
def figures (f : Binary64) : List Int :=
  if f.isFinite then [0, f.units, 1, f.rank] else [f.side, f.rank]

theorem compare_figures_of_lt {f g : Binary64} (h : f.rank < g.rank) :
    compare f.figures g.figures = .lt := by
  have hrank : compare f.rank g.rank = .lt := Int.compare_eq_lt.mpr h
  cases hf : f.isFinite <;> cases hg : g.isFinite <;>
    simp only [figures, side, hf, hg, Bool.false_eq_true, if_true, if_false, List.compare_cons_cons]
  · -- between numbers that are not finite the signs decide, or else the ranks
    cases hm : g.negative with
    | true => simp [negative_of_rank_lt h hm, hrank]
    | false =>
      cases f.negative
      · simp [hrank]
      · rfl
  · simp only [isFinite, decide_eq_true_eq, decide_eq_false_iff_not] at hf hg
    cases hn : f.negative with
    | true => rfl
    | false =>
      have hle := g.rank_le_magnitude
      rw [rank_of_not_negative hn] at h
      omega
  · simp only [isFinite, decide_eq_true_eq, decide_eq_false_iff_not] at hf hg
    cases hm : g.negative with
    | false => rfl
    | true =>
      have hle := f.magnitude_le_rank
      rw [rank_of_negative hm] at h
      omega
  · rcases Int.lt_or_eq_of_le (units_mono (Int.le_of_lt h)) with hu | hu
    · simp [Int.compare_eq_lt.mpr hu]
    · simp [hu, hrank]

theorem compare_figures (f g : Binary64) : compare f.figures g.figures = compare f.rank g.rank := by
  cases h : compare f.rank g.rank with
  | lt => exact compare_figures_of_lt (Int.compare_eq_lt.mp h)
  | eq => rw [eq_of_rank_eq (Int.compare_eq_eq.mp h)]; exact Std.ReflOrd.compare_self
  | gt => exact Std.OrientedCmp.gt_of_lt (compare_figures_of_lt (Int.compare_eq_gt.mp h))

theorem compare_figures_integer (n : BitVec 128) (f : Binary64) :
    compare [0, n.toInt * 2 ^ places, 0] f.figures = f.compareInteger n := by
  cases hf : f.isFinite with
  | true =>
    rw [compareInteger_eq (isNaN_of_isFinite hf)]
    simp only [figures, hf, if_true, List.compare_cons_cons]
    split
    · rename_i h
      rcases Int.lt_or_eq_of_le h with h | h
      · simp [Int.compare_eq_lt.mpr h]
      · rw [h, Std.ReflOrd.compare_self, Std.ReflOrd.compare_self]; rfl
    · rename_i h
      simp [Int.compare_eq_gt.mpr (Int.lt_of_not_ge h)]
  | false =>
    rw [compareInteger_of_not_finite hf]
    simp only [figures, side, hf, Bool.false_eq_true, if_false, List.compare_cons_cons]
    cases f.negative <;> rfl

end Keyset.Binary64
