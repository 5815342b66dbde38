import Keyset.Number.Shortest
import Keyset.Proofs.Number.Nearest

/-! # The search for digits

What `shortest` returns lies in the rounding interval of the number, so the
number is nearest to it (`near_shortest`). The search looks at 24 grids, and on
the last of them two points are less than a quarter of a unit apart
(`fine_grid`), so that it never runs out (`search_found`). -/

namespace Keyset.Digits
open Binary64 (Near)

/-- What brings the ends of the interval to whole numbers. -/
def unit (q k : Int) : Nat := Nat.pow 2 (q - 2).toNat * Nat.pow 10 (-k).toNat

/-- What brings the points of the grid to whole numbers. -/
def step (q k : Int) : Nat := Nat.pow 10 k.toNat * Nat.pow 2 (2 - q).toNat

theorem unit_pos (q k : Int) : 0 < unit q k :=
  Nat.mul_pos (Nat.pow_pos (by decide)) (Nat.pow_pos (by decide))

theorem step_pos (q k : Int) : 0 < step q k :=
  Nat.mul_pos (Nat.pow_pos (by decide)) (Nat.pow_pos (by decide))

/-- A point of the grid, in quarters of units. -/
theorem cast_step (q k : Int) (point : Nat) :
    ((point * step q k : Nat) : ℚ) = 4 * (point * 10 ^ k / 2 ^ q) * (unit q k : Nat) := by
  have hq : (2 : ℚ) ^ q = 4 * 2 ^ (q - 2) := by
    rw [zpow_sub₀ (by norm_num)]
    ring
  have h10 := zpow_eq_div (b := 10) (by decide) k
  have h2 := zpow_eq_div (b := 2) (by decide) (q - 2)
  rw [Int.neg_sub] at h2
  push_cast at h10 h2
  rw [hq, h10, h2, unit, step]
  simp only [Nat.pow_eq]
  push_cast
  field_simp

/-! ## Points in the interval -/

/-- A point in the interval lies between its ends, and off them if the significand is odd. -/
theorem ends_of_contains {f : Binary64} {k : Int} {point : Nat} {z : ℚ}
    (hz : z = point * 10 ^ k / 2 ^ f.exponent)
    (h : (interval f).contains (unit f.exponent k) (step f.exponent k) point = true) :
    ((interval f).low : ℚ) ≤ 4 * z ∧ 4 * z ≤ (interval f).high ∧
      (f.significand % 2 = 1 → ((interval f).low : ℚ) < 4 * z ∧ 4 * z < (interval f).high) := by
  have hcast := cast_step f.exponent k point
  rw [← hz] at hcast
  have hunit : (0 : ℚ) < (unit f.exponent k : Nat) := Nat.cast_pos.2 (unit_pos _ _)
  have le_cast {a : Nat} : a * unit f.exponent k ≤ point * step f.exponent k ↔ (a : ℚ) ≤ 4 * z := by
    rw [← Nat.cast_le (α := ℚ), hcast, Nat.cast_mul, mul_le_mul_iff_left₀ hunit]
  have cast_le {a : Nat} : point * step f.exponent k ≤ a * unit f.exponent k ↔ 4 * z ≤ a := by
    rw [← Nat.cast_le (α := ℚ), hcast, Nat.cast_mul, mul_le_mul_iff_left₀ hunit]
  simp only [Interval.contains] at h
  split at h
  · rename_i hclosed
    simp only [Bool.and_eq_true, decide_eq_true_eq, le_cast, cast_le] at h
    refine ⟨h.1, h.2, fun hodd => ?_⟩
    have heven : f.significand % 2 = 0 := of_decide_eq_true hclosed
    omega
  · simp only [Bool.and_eq_true, decide_eq_true_eq, lt_iff_lt_of_le_iff_le cast_le,
      lt_iff_lt_of_le_iff_le le_cast] at h
    exact ⟨h.1.le, h.2.le, fun _ => h⟩

theorem near_of_contains {f : Binary64} (hf : f.isFinite = true) (hz : f.isZero = false)
    {k : Int} {point : Nat}
    (h : (interval f).contains (unit f.exponent k) (step f.exponent k) point = true) :
    f.Near (point * 10 ^ k / 2 ^ f.exponent) := by
  obtain ⟨hsig, -⟩ := Binary64.parts hf hz
  obtain ⟨hlow, hhigh, hodd⟩ := ends_of_contains rfl h
  have hlowEnd : 4 * (f.significand : ℚ) - 2 ≤ (interval f).low := by
    have hle : 4 * f.significand ≤ (interval f).low + 2 := by
      simp only [interval]
      split <;> omega
    have hcast : (4 * f.significand : ℚ) ≤ (interval f).low + 2 := by exact_mod_cast hle
    linarith
  have hhighEnd : ((interval f).high : ℚ) = 4 * f.significand + 2 := by
    simp only [interval]
    push_cast
    ring
  rw [hhighEnd] at hhigh hodd
  refine ⟨⟨by linarith, by linarith, fun ho => ⟨?_, ?_⟩⟩, fun hpow hexp => ?_⟩
  · linarith [(hodd ho).1]
  · linarith [(hodd ho).2]
  · have hquarter : (interval f).low = 4 * 2 ^ 52 - 1 := by
      simp only [interval, hpow]
      rw [if_pos ⟨rfl, hexp⟩]
    rw [hquarter] at hlow
    norm_num at hlow
    linarith

theorem onGrid?_eq (tie : Tie) (i : Interval) (q k : Int) : onGrid? tie i q k =
    let below := i.middle * unit q k / step q k
    let above := below + 1
    match i.contains (unit q k) (step q k) below, i.contains (unit q k) (step q k) above with
    | true, true =>
      let down := i.middle * unit q k - below * step q k
      let up := above * step q k - i.middle * unit q k
      some (if down < up ∨ (down = up ∧ tie.takesBelow below) then below else above)
    | true, false => some below
    | false, true => some above
    | false, false => none := rfl

theorem contains_of_onGrid? {tie : Tie} {i : Interval} {q k : Int} {d : Nat}
    (h : onGrid? tie i q k = some d) : i.contains (unit q k) (step q k) d = true := by
  rw [onGrid?_eq] at h
  simp only at h
  split at h
  · rename_i hbelow habove
    cases h
    split
    · exact hbelow
    · exact habove
  · rename_i hbelow _
    cases h
    exact hbelow
  · rename_i _ habove
    cases h
    exact habove
  · cases h

/-- On a grid with a step of at most a quarter of a unit, the point below the number is in the
interval. -/
theorem onGrid?_of_fine (tie : Tie) {f : Binary64} (hf : f.isFinite = true)
    (hz : f.isZero = false) {k : Int} (h : step f.exponent k ≤ unit f.exponent k) :
    ∃ d, onGrid? tie (interval f) f.exponent k = some d := by
  obtain ⟨hsig, -⟩ := Binary64.parts hf hz
  obtain ⟨below, hbelow⟩ : ∃ n, n = (interval f).middle * unit f.exponent k / step f.exponent k :=
    ⟨_, rfl⟩
  have hpos := unit_pos f.exponent k
  have hsplit := Nat.div_add_mod' ((interval f).middle * unit f.exponent k) (step f.exponent k)
  have hmod := Nat.mod_lt ((interval f).middle * unit f.exponent k) (step_pos f.exponent k)
  have hlow : ((interval f).low + 1) * unit f.exponent k ≤
      (interval f).middle * unit f.exponent k := by
    refine Nat.mul_le_mul_right _ ?_
    simp only [interval]
    split <;> omega
  have hhigh : ((interval f).middle + 1) * unit f.exponent k ≤
      (interval f).high * unit f.exponent k := Nat.mul_le_mul_right _ (by simp [interval])
  rw [Nat.add_mul] at hlow hhigh
  rw [← hbelow] at hsplit
  have hcontains : (interval f).contains (unit f.exponent k) (step f.exponent k) below = true := by
    simp only [Interval.contains]
    split <;> simp only [Bool.and_eq_true, decide_eq_true_eq] <;> omega
  rw [onGrid?_eq]
  simp only [← hbelow, hcontains]
  cases (interval f).contains (unit f.exponent k) (step f.exponent k) (below + 1) with
  | true => exact ⟨_, rfl⟩
  | false => exact ⟨_, rfl⟩

/-! ## Grids that are fine enough -/

theorem pow_le_pow_of_rate {x y s t a b : Nat} (hs : s ≠ 0) (hy : 0 < y) (hst : x ^ s ≤ y ^ t)
    (h : a * t ≤ b * s) : x ^ a ≤ y ^ b := by
  refine (Nat.pow_le_pow_iff_left hs).1 ?_
  calc (x ^ a) ^ s = (x ^ s) ^ a := by rw [← Nat.pow_mul, ← Nat.pow_mul, Nat.mul_comm]
    _ ≤ (y ^ t) ^ a := Nat.pow_le_pow_left hst a
    _ = y ^ (a * t) := by rw [← Nat.pow_mul, Nat.mul_comm]
    _ ≤ y ^ (b * s) := Nat.pow_le_pow_right hy h
    _ = (y ^ b) ^ s := Nat.pow_mul ..

/-- Powers of ten and of two compare by `log10 2`, which is a little less than `0.30103`. -/
theorem fine_grid {q k : Int} (hmin : -1074 ≤ q) (hmax : q ≤ 971)
    (hk : (k + 21) * 100000 ≤ (52 + q) * 30103) : step q k ≤ unit q k := by
  simp only [step, unit, Nat.pow_eq]
  rcases Int.lt_or_le k 0 with hneg | hpos
  · rw [Int.toNat_of_nonpos hneg.le, Nat.pow_zero, Nat.one_mul]
    rcases Int.lt_or_le q 2 with hq | hq
    · rw [Int.toNat_of_nonpos (by omega : q - 2 ≤ 0), Nat.pow_zero, Nat.one_mul]
      exact pow_le_pow_of_rate (s := 93) (t := 28) (by decide) (by decide) (by decide) (by omega)
    · rw [Int.toNat_of_nonpos (by omega : 2 - q ≤ 0), Nat.pow_zero]
      exact Nat.mul_pos (Nat.pow_pos (by decide)) (Nat.pow_pos (by decide))
  · rw [Int.toNat_of_nonpos (by omega : -k ≤ 0), Int.toNat_of_nonpos (by omega : 2 - q ≤ 0),
      Nat.pow_zero, Nat.mul_one, Nat.mul_one]
    exact pow_le_pow_of_rate (s := 3) (t := 10) (by decide) (by decide) (by decide) (by omega)

/-! ## The search -/

theorem search_found {tie : Tie} {i : Interval} {q : Int} {fuel : Nat} {k : Int} {j : Nat}
    (hj : j < fuel) (h : ∃ d, onGrid? tie i q (k - j) = some d) :
    ∃ d, onGrid? tie i q (search tie i q fuel k).exponent = some d ∧
      (search tie i q fuel k).digits = d ∧ k - j ≤ (search tie i q fuel k).exponent ∧
      (search tie i q fuel k).exponent ≤ k := by
  induction fuel generalizing k j with
  | zero => omega
  | succ fuel ih =>
    cases hfirst : onGrid? tie i q k with
    | some d =>
      simp only [search, hfirst]
      exact ⟨d, rfl, rfl, by omega, Int.le_refl k⟩
    | none =>
      cases j with
      | zero =>
        rw [Int.natCast_zero, Int.sub_zero, hfirst] at h
        obtain ⟨d, hd⟩ := h
        cases hd
      | succ j =>
        have hshift : k - ((j + 1 : Nat) : Int) = k - 1 - j := by omega
        rw [hshift] at h ⊢
        obtain ⟨d, hd, hdigits, hlow, hhigh⟩ := ih (by omega) h
        simp only [search, hfirst]
        exact ⟨d, hd, hdigits, hlow, by omega⟩

theorem log2_le {n : Nat} (h : n < 2 ^ 53) : n.log2 ≤ 52 := by
  by_cases hn : n = 0
  · simp [hn]
  · exact Nat.le_of_lt_succ ((Nat.log2_lt hn).2 h)

/-- The digits denote a number that is nearest to the given one, and no great power of ten. -/
theorem near_shortest (tie : Tie) {f : Binary64} (hf : f.isFinite = true)
    (hz : f.isZero = false) :
    f.Near ((shortest tie f).digits * 10 ^ (shortest tie f).exponent / 2 ^ f.exponent) ∧
      -400 ≤ (shortest tie f).exponent ∧ (shortest tie f).exponent ≤ 400 := by
  obtain ⟨-, hlt, hmin, hmax, -⟩ := Binary64.parts hf hz
  have hlog := log2_le hlt
  have hfine : step f.exponent (coarsest f - (23 : Nat)) ≤
      unit f.exponent (coarsest f - (23 : Nat)) := fine_grid hmin hmax (by unfold coarsest; omega)
  obtain ⟨d, hd, hdigits, hlow, hhigh⟩ := search_found (by decide : 23 < 24)
    (onGrid?_of_fine tie hf hz hfine)
  have hnear := near_of_contains hf hz (contains_of_onGrid? hd)
  rw [← hdigits] at hnear
  unfold coarsest at hlow hhigh
  refine ⟨hnear, ?_, ?_⟩
  · unfold shortest coarsest
    omega
  · unfold shortest coarsest
    omega

end Keyset.Digits
