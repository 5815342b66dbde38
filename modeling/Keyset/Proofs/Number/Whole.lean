import Keyset.Proofs.Number.Units

/-! # Whole parts

Dropping the places behind the point is dividing the units of a number by those
of one (`units_truncated`). A number within the range of integers of 128 bits
has a whole part in that range, so that taking it as such an integer changes
nothing (`toInt_truncated`). -/

namespace Keyset.Binary64

/-! ## Sign and magnitude of a pattern -/

variable {n : Nat} (negative : Bool)

theorem bits_ofMagnitude (h : n < 2 ^ 63) :
    (ofMagnitude negative n).bits.toNat = if negative then 2 ^ 63 + n else n := by
  rw [ofMagnitude, UInt64.toNat_ofNat']
  apply Nat.mod_eq_of_lt
  cases negative <;> simp only [Nat.pow_eq, Bool.false_eq_true, if_true, if_false] <;> omega

theorem negative_ofMagnitude (h : n < 2 ^ 63) : (ofMagnitude negative n).negative = negative := by
  rw [Binary64.negative, bits_ofMagnitude negative h]
  cases negative <;> simp only [Nat.pow_eq, Bool.false_eq_true, if_true, if_false,
    decide_eq_true_eq, decide_eq_false_iff_not] <;> omega

theorem magnitude_ofMagnitude (h : n < 2 ^ 63) : (ofMagnitude negative n).magnitude = n := by
  rw [magnitude, bits_ofMagnitude negative h]
  cases negative <;> simp only [Nat.pow_eq, Bool.false_eq_true, if_true, if_false] <;> omega

theorem units_ofMagnitude (h : n < 2 ^ 63) :
    (ofMagnitude negative n).units = if negative then -(scale n : Int) else scale n := by
  rw [units, negative_ofMagnitude negative h, magnitude_ofMagnitude negative h]

/-! ## Places behind the point -/

/-- What is left of a magnitude. -/
def truncatedMagnitude (m : Nat) : Nat :=
  if m / 2 ^ 52 < 1023 then 0 else m - m % 2 ^ (1075 - m / 2 ^ 52)

theorem truncated_eq (f : Binary64) :
    f.truncated = ofMagnitude f.negative (truncatedMagnitude f.magnitude) := rfl

theorem truncatedMagnitude_le (m : Nat) : truncatedMagnitude m ≤ m := by
  unfold truncatedMagnitude
  split <;> omega

/-- From `2 ^ 1023 * 2 ^ 52` on magnitudes have a whole part, and the bits behind the point can be
taken off without a change to the exponent. -/
theorem scale_sub {m r e : Nat} (he : m / 2 ^ 52 = e + 1) (hr : r ≤ m % 2 ^ 52) :
    scale (m - r) = (2 ^ 52 + m % 2 ^ 52 - r) * 2 ^ e := by
  have hdiv : (m - r) / 2 ^ 52 = e + 1 := by omega
  have hmod : (m - r) % 2 ^ 52 = m % 2 ^ 52 - r := by omega
  unfold scale
  rw [hdiv, hmod, if_neg (by omega), Nat.max_eq_left (by omega), Nat.add_sub_cancel,
    Nat.add_sub_assoc hr]

/-- What is left counts for the multiple of one that is next below. -/
theorem scale_truncatedMagnitude (m : Nat) :
    scale (truncatedMagnitude m) = scale m / 2 ^ places * 2 ^ places := by
  unfold truncatedMagnitude
  split
  · rename_i hm
    have hlt : scale m < 2 ^ places :=
      calc scale m < 2 ^ 52 * 2 ^ (m / 2 ^ 52) := scale_lt m
        _ = 2 ^ (52 + m / 2 ^ 52) := (Nat.pow_add 2 52 (m / 2 ^ 52)).symm
        _ ≤ 2 ^ places := Nat.pow_le_pow_right (by decide) (by simp only [places]; omega)
    rw [Nat.div_eq_of_lt hlt, scale_zero, Nat.zero_mul]
  · rename_i hm
    obtain ⟨e, he⟩ : ∃ e, m / 2 ^ 52 = e + 1 := ⟨m / 2 ^ 52 - 1, by omega⟩
    have hwhole : scale m = (2 ^ 52 + m % 2 ^ 52) * 2 ^ e := scale_sub (r := 0) he (Nat.zero_le _)
    rcases Nat.lt_or_ge e places with hlt | hge
    · -- the last `p` bits of the fraction stand behind the point
      obtain ⟨p, hp⟩ : ∃ p, 1075 - m / 2 ^ 52 = p := ⟨_, rfl⟩
      have hplaces : places = p + e := by simp only [places] at hlt ⊢; omega
      obtain ⟨q, hq⟩ : ∃ q, 52 = p + q := ⟨52 - p, by simp only [places] at hlt; omega⟩
      have hrest : (2 ^ 52 + m % 2 ^ 52) % 2 ^ p = m % 2 ^ p := by
        rw [hq, Nat.pow_add, Nat.mul_add_mod, Nat.mod_mul_right_mod]
      have hle : m % 2 ^ p ≤ m % 2 ^ 52 := by
        calc m % 2 ^ p = m % 2 ^ 52 % 2 ^ p := by rw [hq, Nat.pow_add, Nat.mod_mul_right_mod]
          _ ≤ m % 2 ^ 52 := Nat.mod_le _ _
      have hsplit := Nat.div_add_mod' (2 ^ 52 + m % 2 ^ 52) (2 ^ p)
      rw [hp, scale_sub he hle, hwhole, hplaces, Nat.pow_add,
        Nat.mul_div_mul_right _ _ (Nat.two_pow_pos e), ← Nat.mul_assoc]
      congr 1
      omega
    · -- the number is whole
      have hp : 1075 - m / 2 ^ 52 = 0 := by simp only [places] at hge; omega
      have hdvd : 2 ^ places ∣ scale m := by
        rw [hwhole]
        exact Nat.dvd_mul_left_of_dvd (Nat.pow_dvd_pow 2 hge) _
      rw [hp, Nat.pow_zero, Nat.mod_one, Nat.sub_zero, Nat.div_mul_cancel hdvd]

theorem units_truncated (f : Binary64) :
    f.truncated.units = f.units.tdiv (2 ^ places) * 2 ^ places := by
  have hlt : truncatedMagnitude f.magnitude < 2 ^ 63 :=
    Nat.lt_of_le_of_lt (truncatedMagnitude_le _) f.magnitude_lt
  rw [truncated_eq, units_ofMagnitude _ hlt, scale_truncatedMagnitude, units]
  split
  · rw [Int.neg_tdiv, Int.neg_mul]
    norm_cast
  · norm_cast

/-! ## Integers of 128 bits -/

/-- Significand and exponent make up what a number counts for, and the unit falls short of what the
exponent divides by. -/
theorem scale_eq (f : Binary64) : ∃ k : Nat, places = (-f.exponent).toNat + k ∧
    scale f.magnitude = f.significand * 2 ^ f.exponent.toNat * 2 ^ k := by
  obtain ⟨k, hk, hs⟩ : ∃ k : Nat, places = (-f.exponent).toNat + k ∧
      max (f.magnitude / 2 ^ 52) 1 - 1 = f.exponent.toNat + k := by
    refine ⟨places - (-f.exponent).toNat, ?_, ?_⟩ <;>
      simp only [exponent, places, Int.ofNat_eq_natCast, Nat.pow_eq] <;> omega
  refine ⟨k, hk, ?_⟩
  rw [scale, hs, Nat.pow_add, ← Nat.mul_assoc]
  rfl

theorem whole_eq (f : Binary64) : f.whole = f.units.tdiv (2 ^ places) := by
  obtain ⟨k, hk, hscale⟩ := f.scale_eq
  have hdiv : scale f.magnitude / 2 ^ places =
      f.significand * 2 ^ f.exponent.toNat / 2 ^ (-f.exponent).toNat := by
    rw [hscale, hk, Nat.pow_add, Nat.mul_div_mul_right _ _ (Nat.two_pow_pos k)]
  simp only [whole, Nat.pow_eq, ← hdiv, units]
  split
  · rw [Int.neg_tdiv]
    norm_cast
  · norm_cast

/-- A pattern without a fraction is a power of two. -/
theorem scale_pow (e : Nat) : scale ((e + 1) * 2 ^ 52) = 2 ^ (52 + e) := by
  have hexponent : (e + 1) * 2 ^ 52 / 2 ^ 52 = e + 1 := by omega
  have hfraction : (e + 1) * 2 ^ 52 % 2 ^ 52 = 0 := by omega
  rw [Nat.pow_add, ← Nat.sub_zero ((e + 1) * 2 ^ 52), scale_sub hexponent (Nat.zero_le _),
    hfraction, Nat.add_zero, Nat.sub_zero]

theorem units_int128Limit : int128Limit.units = 2 ^ 127 * 2 ^ places := by
  have hmagnitude : int128Limit.magnitude = (1149 + 1) * 2 ^ 52 := by decide
  have hexponent : 52 + 1149 = 127 + places := rfl
  rw [units_of_not_negative (by decide), hmagnitude, scale_pow, hexponent, Int.natCast_pow,
    Int.pow_add]
  rfl

theorem units_neg (f : Binary64) : f.neg.units = -f.units := by
  rw [neg, units_ofMagnitude _ f.magnitude_lt, units]
  cases f.negative <;> simp

theorem less_limit_iff {f : Binary64} (h : f.isNaN = false) :
    f.less int128Limit = true ↔ f.units < 2 ^ 127 * 2 ^ places := by
  rw [less_iff h (by decide), units_int128Limit]

theorem less_neg_limit_iff {f : Binary64} (h : f.isNaN = false) :
    f.less int128Limit.neg = true ↔ f.units < -2 ^ 127 * 2 ^ places := by
  rw [less_iff h (by decide), units_neg, units_int128Limit, Int.neg_mul]

/-- Neither a NaN nor beyond the limits. These are the numbers whose whole part is looked at. -/
structure Within (f : Binary64) : Prop where
  number : f.isNaN = false
  high : f.less int128Limit = true
  low : f.less int128Limit.neg = false

theorem tdiv_bounds {a b bound : Int} (hb : 0 < b) (hbound : 0 < bound) (hlow : -bound * b ≤ a)
    (hhigh : a < bound * b) : -bound ≤ a.tdiv b ∧ a.tdiv b < bound := by
  rcases Int.le_total 0 a with ha | ha
  · rw [Int.tdiv_eq_ediv_of_nonneg ha]
    have hquot : 0 ≤ a / b := Int.ediv_nonneg ha (Int.le_of_lt hb)
    exact ⟨by omega, Int.ediv_lt_of_lt_mul hb hhigh⟩
  · have hneg : a.tdiv b = -(-a / b) := by
      rw [← Int.tdiv_eq_ediv_of_nonneg (by omega), Int.neg_tdiv, Int.neg_neg]
    have hquot : 0 ≤ -a / b := Int.ediv_nonneg (by omega) (Int.le_of_lt hb)
    have hle : -a / b ≤ bound := by
      refine Int.ediv_le_of_le_mul hb ?_
      rw [Int.neg_mul] at hlow
      omega
    omega

theorem isNaN_truncated {f : Binary64} (h : f.isNaN = false) : f.truncated.isNaN = false := by
  have hle := truncatedMagnitude_le f.magnitude
  have hlt := Nat.lt_of_le_of_lt hle f.magnitude_lt
  simp only [isNaN, decide_eq_false_iff_not, truncated_eq, magnitude_ofMagnitude _ hlt] at *
  omega

/-- Taking the whole part as an integer of 128 bits changes nothing. -/
theorem toInt_truncated {f : Binary64} (h : f.Within) :
    f.truncated.toInt128.toInt = f.units.tdiv (2 ^ places) := by
  have hpos : (0 : Int) < 2 ^ places := Int.pow_pos (by decide)
  have hwhole : f.truncated.whole = f.units.tdiv (2 ^ places) := by
    rw [whole_eq, units_truncated, Int.mul_tdiv_cancel _ (Int.ne_of_gt hpos)]
  have habove : -2 ^ 127 * 2 ^ places ≤ f.units := by
    have hlow := h.low
    rwa [Bool.eq_false_iff, Ne, less_neg_limit_iff h.number, Int.not_lt] at hlow
  obtain ⟨hlow, hhigh⟩ := tdiv_bounds hpos (by decide) habove ((less_limit_iff h.number).mp h.high)
  have hmin : (BitVec.intMin 128).toInt = -2 ^ 127 := by decide
  have hmax : (BitVec.intMax 128).toInt = 2 ^ 127 - 1 := by decide
  rw [toInt128, isNaN_truncated h.number, if_neg Bool.false_ne_true, hwhole, hmin, hmax,
    Int.min_eq_left (Int.le_sub_one_of_lt hhigh), Int.max_eq_right hlow]
  exact BitVec.toInt_ofInt_eq_self (by decide) hlow hhigh

end Keyset.Binary64
