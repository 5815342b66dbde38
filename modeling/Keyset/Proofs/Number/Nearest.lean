import Keyset.Number.Rounding
import Mathlib.Algebra.Order.Field.Power
import Mathlib.Algebra.Order.Field.Rat
import Mathlib.Data.Rat.Cast.Order
import Mathlib.Tactic.FieldSimp
import Mathlib.Tactic.Linarith
import Mathlib.Tactic.Positivity
import Mathlib.Tactic.Ring

/-! # The nearest number

`nearestMagnitude` scales a quotient by a power of two, rounds it to a whole
number and puts power and number together. Here the scaled quotient is a
rational number: `nearestMagnitude_eq` says what is rounded, and
`nearestMagnitude_of_near` that all rationals within the rounding interval of a
finite number are nearest to it. -/

namespace Keyset

/-! ## Powers with integer exponents -/

theorem zpow_eq_div {b : Nat} (hb : 0 < b) (e : Int) :
    (b : ℚ) ^ e = ((b ^ e.toNat : Nat) : ℚ) / ((b ^ (-e).toNat : Nat) : ℚ) := by
  have hne : (b : ℚ) ≠ 0 := by positivity
  obtain ⟨n, rfl | rfl⟩ := e.eq_nat_or_neg
  · have h0 : (-(n : Int)).toNat = 0 := by omega
    simp [h0]
  · have h0 : (-(n : Int)).toNat = 0 := by omega
    simp [h0]

theorem le_of_two_zpow_lt {a b : Int} {x : ℚ} (ha : 2 ^ a ≤ x) (hb : x < 2 ^ (b + 1)) : a ≤ b := by
  have h : (2 : ℚ) ^ a < 2 ^ (b + 1) := lt_of_le_of_lt ha hb
  have hlt := (zpow_lt_zpow_iff_right₀ (by norm_num : (1 : ℚ) < 2)).1 h
  omega

/-! ## Rounding to a whole number -/

theorem roundHalfEven_eq_of_nat {num den r : Nat} (hlow : 2 * (r * den) ≤ 2 * num + den)
    (hhigh : 2 * num ≤ 2 * (r * den) + den) (hden : 0 < den)
    (hodd : r % 2 = 1 → 2 * (r * den) < 2 * num + den ∧ 2 * num < 2 * (r * den) + den) :
    roundHalfEven num den = r := by
  have hsplit : num / den * den + num % den = num := Nat.div_add_mod' num den
  have hlt : num % den < den := Nat.mod_lt _ hden
  obtain ⟨q, hq⟩ : ∃ q, num / den = q := ⟨_, rfl⟩
  obtain ⟨t, ht⟩ : ∃ t, num % den = t := ⟨_, rfl⟩
  rw [hq, ht] at hsplit
  rw [ht] at hlt
  have hle : q ≤ r := by
    by_contra h
    have : (r + 1) * den ≤ q * den := Nat.mul_le_mul_right den (by omega)
    rw [Nat.add_mul] at this
    omega
  have hge : r ≤ q + 1 := by
    by_contra h
    have : (q + 2) * den ≤ r * den := Nat.mul_le_mul_right den (by omega)
    rw [Nat.add_mul] at this
    omega
  simp only [roundHalfEven, hq, ht]
  rcases Nat.lt_or_ge q r with h | h
  · obtain rfl : r = q + 1 := by omega
    rw [Nat.add_mul] at hlow hodd
    rw [if_neg (by omega)]
  · obtain rfl : r = q := by omega
    rw [if_pos (by omega)]

/-- A number rounds to the whole numbers at most a half away; a half goes to the even one. -/
structure RoundsTo (r : Nat) (x : ℚ) : Prop where
  low : (r : ℚ) - 1 / 2 ≤ x
  high : x ≤ r + 1 / 2
  odd : r % 2 = 1 → (r : ℚ) - 1 / 2 < x ∧ x < r + 1 / 2

theorem roundHalfEven_eq {num den r : Nat} (hden : 0 < den) (h : RoundsTo r (num / den)) :
    roundHalfEven num den = r := by
  have hpos : (0 : ℚ) < den := Nat.cast_pos.2 hden
  obtain ⟨x, hx⟩ : ∃ x : ℚ, x = num / den := ⟨_, rfl⟩
  have hnum : (num : ℚ) = x * den := by rw [hx]; field_simp
  rw [← hx] at h
  have cast_le {a b : Nat} (h : (a : ℚ) ≤ b) : a ≤ b := Nat.cast_le.1 h
  have cast_lt {a b : Nat} (h : (a : ℚ) < b) : a < b := Nat.cast_lt.1 h
  refine roundHalfEven_eq_of_nat (cast_le ?_) (cast_le ?_) hden
    fun ho => ⟨cast_lt ?_, cast_lt ?_⟩
  all_goals push_cast; rw [hnum]
  · linarith [mul_le_mul_of_nonneg_right h.low hpos.le]
  · linarith [mul_le_mul_of_nonneg_right h.high hpos.le]
  · linarith [mul_lt_mul_of_pos_right (h.odd ho).1 hpos]
  · linarith [mul_lt_mul_of_pos_right (h.odd ho).2 hpos]

/-! ## The power of two -/

/-- The exponent of the greatest power of two that is not above `num / den`. -/
def floorLog2 (num den : Nat) : Int :=
  let top : Int := (num.log2 : Int) - den.log2
  if den * Nat.pow 2 top.toNat ≤ num * Nat.pow 2 (-top).toNat then top else top - 1

theorem two_pow_log2_le {n : Nat} (h : 0 < n) : (2 : ℚ) ^ (n.log2 : Int) ≤ n := by
  rw [zpow_natCast]
  exact_mod_cast Nat.log2_self_le (by omega)

theorem lt_two_pow_log2 (n : Nat) : (n : ℚ) < 2 ^ ((n.log2 : Int) + 1) := by
  have h : n < 2 ^ (n.log2 + 1) := Nat.lt_log2_self
  exact_mod_cast h

theorem floorLog2_spec {num den : Nat} {x : ℚ} (hnum : 0 < num) (hden : 0 < den)
    (hx : x = num / den) :
    (2 : ℚ) ^ floorLog2 num den ≤ x ∧ x < 2 ^ (floorLog2 num den + 1) := by
  have hpos : (0 : ℚ) < den := Nat.cast_pos.2 hden
  have htwo : (2 : ℚ) ≠ 0 := by norm_num
  obtain ⟨top, htop⟩ : ∃ top : Int, top = (num.log2 : Int) - den.log2 := ⟨_, rfl⟩
  have hupper : x < 2 ^ (top + 1) := by
    rw [hx, div_lt_iff₀ hpos]
    calc (num : ℚ) < 2 ^ ((num.log2 : Int) + 1) := lt_two_pow_log2 num
      _ = 2 ^ (top + 1) * 2 ^ (den.log2 : Int) := by
        rw [← zpow_add₀ htwo, htop]; congr 1; omega
      _ ≤ 2 ^ (top + 1) * den := mul_le_mul_of_nonneg_left (two_pow_log2_le hden) (by positivity)
  have hlower : 2 ^ (top - 1) ≤ x := by
    rw [hx, le_div_iff₀ hpos]
    calc (2 : ℚ) ^ (top - 1) * den ≤ 2 ^ (top - 1) * 2 ^ ((den.log2 : Int) + 1) :=
          mul_le_mul_of_nonneg_left (lt_two_pow_log2 den).le (by positivity)
      _ = 2 ^ (num.log2 : Int) := by rw [← zpow_add₀ htwo, htop]; congr 1; omega
      _ ≤ num := two_pow_log2_le hnum
  have hiff : den * Nat.pow 2 top.toNat ≤ num * Nat.pow 2 (-top).toNat ↔ (2 : ℚ) ^ top ≤ x := by
    have hpow : (0 : ℚ) < ((2 ^ (-top).toNat : Nat) : ℚ) := by positivity
    rw [hx, le_div_iff₀ hpos, show (2 : ℚ) = ((2 : Nat) : ℚ) by norm_num,
      zpow_eq_div (by decide), div_mul_eq_mul_div, div_le_iff₀ hpow, mul_comm]
    exact_mod_cast Iff.rfl
  simp only [floorLog2, ← htop, hiff]
  split
  · exact ⟨by assumption, hupper⟩
  · rename_i h
    rw [Int.sub_add_cancel]
    exact ⟨hlower, lt_of_not_ge h⟩

theorem floorLog2_eq {num den : Nat} {x : ℚ} {e : Int} (hnum : 0 < num) (hden : 0 < den)
    (hx : x = num / den) (hlow : 2 ^ e ≤ x) (hhigh : x < 2 ^ (e + 1)) : floorLog2 num den = e := by
  obtain ⟨h1, h2⟩ := floorLog2_spec hnum hden hx
  exact Int.le_antisymm (le_of_two_zpow_lt h1 hhigh) (le_of_two_zpow_lt hlow h2)

/-! ## The nearest magnitude -/

theorem nearestMagnitude_eq {num den r : Nat} {x : ℚ} {unit : Int} (hden : 0 < den)
    (hx : x = num / den) (hunit : max (floorLog2 num den - 52) (-1074) = unit)
    (hr : RoundsTo r (x / 2 ^ unit)) :
    nearestMagnitude num den = min ((unit + 1074).toNat * 2 ^ 52 + r) Binary64.infinity := by
  have hscaled : x / 2 ^ unit = ((num * Nat.pow 2 (-unit).toNat : Nat) : ℚ) /
      ((den * Nat.pow 2 unit.toNat : Nat) : ℚ) := by
    rw [hx, show (2 : ℚ) = ((2 : Nat) : ℚ) by norm_num, zpow_eq_div (by decide), div_div_div_eq]
    simp only [Nat.pow_eq, Nat.cast_mul]
  have hround : roundHalfEven (num * Nat.pow 2 (-unit).toNat) (den * Nat.pow 2 unit.toNat) = r :=
    roundHalfEven_eq (Nat.mul_pos hden (Nat.pow_pos (by decide))) (hscaled ▸ hr)
  show min ((max (floorLog2 num den - 52) (-1074) + 1074).toNat * Nat.pow 2 52 + roundHalfEven
    (num * Nat.pow 2 (-max (floorLog2 num den - 52) (-1074)).toNat)
    (den * Nat.pow 2 (max (floorLog2 num den - 52) (-1074)).toNat)) Binary64.infinity = _
  rw [hunit, hround, Nat.pow_eq]

namespace Binary64

/-- Significand and exponent of a finite number other than zero. -/
theorem parts {f : Binary64} (hf : f.isFinite = true) (hz : f.isZero = false) :
    0 < f.significand ∧ f.significand < 2 ^ 53 ∧ -1074 ≤ f.exponent ∧ f.exponent ≤ 971 ∧
      (-1074 < f.exponent → 2 ^ 52 ≤ f.significand) ∧
      (f.exponent + 1074).toNat * 2 ^ 52 + f.significand = f.magnitude := by
  have hlt : f.magnitude < 0x7FF0000000000000 := of_decide_eq_true hf
  have hne : f.magnitude ≠ 0 := of_decide_eq_false hz
  simp only [significand, exponent, Nat.pow_eq, Int.ofNat_eq_natCast]
  split <;> omega

/-- What rounds to a number, in units of its last place. Below a power of two the units are half
as large, and with them the distance. -/
structure Near (f : Binary64) (z : ℚ) : Prop where
  rounds : RoundsTo f.significand z
  below : f.significand = 2 ^ 52 → -1074 < f.exponent → (2 : ℚ) ^ 52 - 1 / 4 ≤ z

theorem Near.pos {f : Binary64} {z : ℚ} (h : f.Near z) (hf : f.isFinite = true)
    (hz : f.isZero = false) : 0 < z := by
  have hone : (1 : ℚ) ≤ f.significand := by exact_mod_cast (parts hf hz).1
  linarith [h.rounds.low]

theorem Near.lt {f : Binary64} {z : ℚ} (h : f.Near z) (hf : f.isFinite = true)
    (hz : f.isZero = false) : z < 2 ^ (53 : Int) := by
  obtain ⟨-, hlt, -⟩ := parts hf hz
  have hle : f.significand ≤ 9007199254740991 := by omega
  have hcast : (f.significand : ℚ) ≤ 9007199254740991 := by exact_mod_cast hle
  rw [show (2 : ℚ) ^ (53 : Int) = 9007199254740992 by norm_num]
  linarith [h.rounds.high]

/-- Below the significands of full length is only what rounds to the first of them. -/
theorem Near.significand_eq {f : Binary64} {z : ℚ} (h : f.Near z) (hf : f.isFinite = true)
    (hz : f.isZero = false) (hbelow : z < 2 ^ (52 : Int)) (hexp : -1074 < f.exponent) :
    f.significand = 2 ^ 52 := by
  obtain ⟨-, -, -, -, hnormal, -⟩ := parts hf hz
  refine Nat.le_antisymm (Nat.le_of_not_lt fun hgt => ?_) (hnormal hexp)
  have hge : 4503599627370497 ≤ f.significand := by omega
  have hcast : (4503599627370497 : ℚ) ≤ f.significand := by exact_mod_cast hge
  rw [show (2 : ℚ) ^ (52 : Int) = 4503599627370496 by norm_num] at hbelow
  linarith [h.rounds.low]

section
variable {f : Binary64} {num den : Nat} {z : ℚ}

theorem two_zpow_pos (e : Int) : (0 : ℚ) < 2 ^ e := by positivity

theorem two_zpow_mul (a b : Int) : (2 : ℚ) ^ a * 2 ^ b = 2 ^ (a + b) :=
  (zpow_add₀ (by norm_num) a b).symm

/-- In units of the number's last place the rounding gives its significand. -/
theorem nearestMagnitude_of_unit (hf : f.isFinite = true) (hz : f.isZero = false) (hden : 0 < den)
    (hx : z * 2 ^ f.exponent = num / den) (h : f.Near z)
    (hunit : max (floorLog2 num den - 52) (-1074) = f.exponent) :
    nearestMagnitude num den = f.magnitude := by
  obtain ⟨-, -, -, -, -, hmagnitude⟩ := parts hf hz
  have hfinite : f.magnitude < infinity := of_decide_eq_true hf
  have hscale : z * 2 ^ f.exponent / 2 ^ f.exponent = z :=
    mul_div_cancel_right₀ z (two_zpow_pos _).ne'
  rw [nearestMagnitude_eq hden hx hunit (hscale.symm ▸ h.rounds), hmagnitude,
    Nat.min_eq_left hfinite.le]

/-- Just below a power of two the units are half as large, and the rounding carries. -/
theorem nearestMagnitude_of_half (hf : f.isFinite = true) (hz : f.isZero = false) (hden : 0 < den)
    (hx : z * 2 ^ f.exponent = num / den) (h : f.Near z) (hexp : -1074 < f.exponent)
    (hbelow : z < 2 ^ (52 : Int)) (hlog : floorLog2 num den = 51 + f.exponent) :
    nearestMagnitude num den = f.magnitude := by
  obtain ⟨-, -, -, -, -, hmagnitude⟩ := parts hf hz
  have hfinite : f.magnitude < infinity := of_decide_eq_true hf
  have hpow := h.significand_eq hf hz hbelow hexp
  have hquarter := h.below hpow hexp
  have hhalf : z * 2 ^ f.exponent / 2 ^ (f.exponent - 1) = 2 * z := by
    rw [zpow_sub₀ (by norm_num), zpow_one]
    field_simp
  have hcarry : RoundsTo (2 ^ 53) (z * 2 ^ f.exponent / 2 ^ (f.exponent - 1)) := by
    rw [show (2 : ℚ) ^ (52 : Int) = 4503599627370496 by norm_num] at hbelow
    rw [hhalf]
    refine ⟨?_, ?_, fun hodd => absurd hodd (by norm_num)⟩
    · push_cast
      linarith
    · push_cast
      linarith
  have hsum : (f.exponent - 1 + 1074).toNat * 2 ^ 52 + 2 ^ 53 = f.magnitude := by
    have hnext : (f.exponent + 1074).toNat = (f.exponent - 1 + 1074).toNat + 1 := by omega
    rw [← hmagnitude, hpow, hnext]
    ring
  rw [nearestMagnitude_eq hden hx (by omega) hcarry, hsum, Nat.min_eq_left hfinite.le]

/-- What is near a number rounds to it. -/
theorem nearestMagnitude_of_near (hf : f.isFinite = true) (hz : f.isZero = false) (hden : 0 < den)
    (hx : z * 2 ^ f.exponent = num / den) (h : f.Near z) :
    nearestMagnitude num den = f.magnitude := by
  obtain ⟨-, -, hmin, -⟩ := parts hf hz
  have hnum : 0 < num := by
    have hquotient : (0 : ℚ) < num / den := hx ▸ mul_pos (h.pos hf hz) (two_zpow_pos _)
    exact_mod_cast (div_pos_iff_of_pos_right (Nat.cast_pos.2 hden)).1 hquotient
  have hupper : z * 2 ^ f.exponent < 2 ^ (52 + f.exponent + 1) := by
    rw [show 52 + f.exponent + 1 = 53 + f.exponent by omega, ← two_zpow_mul]
    exact mul_lt_mul_of_pos_right (h.lt hf hz) (two_zpow_pos _)
  rcases lt_or_ge z (2 ^ (52 : Int)) with hbelow | habove
  · rcases lt_or_ge (-1074) f.exponent with hexp | hexp
    · have hquarter := h.below (h.significand_eq hf hz hbelow hexp) hexp
      have hlower : 2 ^ (51 + f.exponent) ≤ z * 2 ^ f.exponent := by
        rw [← two_zpow_mul]
        refine mul_le_mul_of_nonneg_right ?_ (two_zpow_pos _).le
        rw [show (2 : ℚ) ^ (51 : Int) = 2251799813685248 by norm_num]
        linarith
      refine nearestMagnitude_of_half hf hz hden hx h hexp hbelow
        (floorLog2_eq hnum hden rfl (hx ▸ hlower) ?_)
      rw [← hx, show 51 + f.exponent + 1 = 52 + f.exponent by omega, ← two_zpow_mul]
      exact mul_lt_mul_of_pos_right hbelow (two_zpow_pos _)
    · -- the smallest unit there is
      have hlog : floorLog2 num den ≤ 52 + f.exponent :=
        le_of_two_zpow_lt (floorLog2_spec hnum hden rfl).1 (hx ▸ hupper)
      exact nearestMagnitude_of_unit hf hz hden hx h (by omega)
  · have hlower : 2 ^ (52 + f.exponent) ≤ z * 2 ^ f.exponent := by
      rw [← two_zpow_mul]
      exact mul_le_mul_of_nonneg_right habove (two_zpow_pos _).le
    have hlog : floorLog2 num den = 52 + f.exponent :=
      floorLog2_eq hnum hden rfl (hx ▸ hlower) (hx ▸ hupper)
    exact nearestMagnitude_of_unit hf hz hden hx h (by omega)

end

end Binary64

end Keyset
