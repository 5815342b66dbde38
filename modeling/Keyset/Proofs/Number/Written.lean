import Keyset.Proofs.Json.Numeral
import Keyset.Proofs.Number.Shortest

/-! # Written numbers read back

However the digits of a number are laid out, the text is a numeral for the same
multiple of a power of ten (`write_spelledBy`). The digits were chosen so that the
number is nearest to it, and so `Binary64.read?` gives the number back bit for
bit (`read?_write`), the two zeros included. -/

namespace Keyset
open Number (AllDigits IsDigits DigitFree isDigits_toDigits head?_toDigits
  allDigits_replicate_zero digitFree_nil digitFree_cons)
open Json (IsWhole IsUnsigned IsNumeral IsFraction IsExponent isWhole_toDigits)

/-! ## The parts of a numeral -/

/-- A point and the digits after it, if there are any. -/
def pointed (ds : List Char) : List Char := if ds = [] then [] else '.' :: ds

namespace Decimal

theorem free_of_exponent? {tail : List Char} {e : Int} (h : exponent? tail = some e) :
    DigitFree tail ∧ ∀ cs, tail ≠ '.' :: cs := by
  cases tail with
  | nil => exact ⟨digitFree_nil, fun _ h => by cases h⟩
  | cons c cs =>
    have hc : c = 'e' ∨ c = 'E' := by
      by_contra hne
      simp [exponent?, hne] at h
    constructor
    · exact digitFree_cons (by rcases hc with rfl | rfl <;> rfl)
    · rintro ds ⟨⟩
      rcases hc with h | h <;> cases h

theorem unsigned?_parts (negative : Bool) {whole ds tail : List Char} {e : Int}
    (hw : IsDigits whole) (hd : AllDigits ds) (ht : exponent? tail = some e) :
    unsigned? negative (whole ++ pointed ds ++ tail) =
      some ⟨negative, Nat.ofDigitChars 10 (whole ++ ds) 0, e - ds.length⟩ := by
  obtain ⟨hfree, hpoint⟩ := free_of_exponent? ht
  obtain ⟨hne, hall⟩ := hw
  have hrest : DigitFree (pointed ds ++ tail) := by
    unfold pointed
    split
    · exact hfree
    · exact digitFree_cons rfl
  have hnonempty : (whole ++ ds).isEmpty = false := by
    cases whole with
    | nil => exact absurd rfl hne
    | cons c cs => rfl
  rw [List.append_assoc]
  simp only [unsigned?, hall.takeWhile_append hrest, hall.dropWhile_append hrest]
  by_cases hds : ds = []
  · subst hds
    rw [pointed, if_pos rfl, List.nil_append]
    cases tail with
    | nil => simp [ht, hne]
    | cons c cs => simp [ht, hne]
  · rw [pointed, if_neg hds]
    simp [hd.takeWhile_append hfree, hd.dropWhile_append hfree, ht, hne]

theorem run_toDigits (n : Nat) : exponent?.run (Nat.toDigits 10 n) = some (n : Int) := by
  have hdigits := isDigits_toDigits n
  rw [exponent?.run, if_pos ⟨hdigits.1, List.all_eq_true.2 hdigits.2⟩,
    Nat.ofDigitChars_toDigits (by decide) (by decide)]

/-- An exponent with a sign or, if it is not negative, without one. -/
theorem exponent?_written (plus : Bool) (e : Int) :
    exponent? ('e' :: ((if e < 0 then ['-'] else if plus then ['+'] else []) ++
      Nat.toDigits 10 e.natAbs)) = some e := by
  have hrun := run_toDigits e.natAbs
  by_cases hneg : e < 0
  · have hvalue : -(e.natAbs : Int) = e := by omega
    rw [if_pos hneg]
    show (exponent?.run (Nat.toDigits 10 e.natAbs)).map (- ·) = some e
    rw [hrun, Option.map_some, hvalue]
  · have hvalue : (e.natAbs : Int) = e := by omega
    rw [if_neg hneg]
    cases plus with
    | true =>
      show exponent?.run (Nat.toDigits 10 e.natAbs) = some e
      rw [hrun, hvalue]
    | false =>
      obtain ⟨hne, hall⟩ := isDigits_toDigits e.natAbs
      cases hd : Nat.toDigits 10 e.natAbs with
      | nil => exact absurd hd hne
      | cons c cs =>
        have hc : c.isDigit = true := hall c (by rw [hd]; simp)
        have hplus : c ≠ '+' := by rintro rfl; cases hc
        have hminus : c ≠ '-' := by rintro rfl; cases hc
        rw [hd, hvalue] at hrun
        simp [exponent?, hplus, hminus, hrun]

end Decimal

theorem isExponent_written (plus : Bool) (e : Int) :
    IsExponent ('e' :: ((if e < 0 then ['-'] else if plus then ['+'] else []) ++
      Nat.toDigits 10 e.natAbs)) := by
  refine Or.inr ⟨'e', _, _, rfl, Or.inl rfl, ?_, isDigits_toDigits _⟩
  split
  · exact Or.inr (Or.inr rfl)
  · split
    · exact Or.inr (Or.inl rfl)
    · exact Or.inl rfl

/-! ## Layouts -/

/-- A numeral without sign that is read as the digits, zeros added where there is no point. -/
structure Digits.SpelledBy (d : Digits) (cs : List Char) : Prop where
  numeral : IsUnsigned cs
  read : ∀ negative, ∃ e, e ≤ d.exponent ∧ min d.exponent (-1) ≤ e ∧
    Decimal.unsigned? negative cs = some ⟨negative, d.digits * 10 ^ (d.exponent - e).toNat, e⟩

theorem Digits.spelledBy_parts (d : Digits) {whole ds tail : List Char} {e : Int}
    (hw : IsWhole whole) (hd : AllDigits ds) (hx : IsExponent tail)
    (ht : Decimal.exponent? tail = some e) (hle : e - ds.length ≤ d.exponent)
    (hmin : min d.exponent (-1) ≤ e - ds.length)
    (hvalue : Nat.ofDigitChars 10 (whole ++ ds) 0 =
      d.digits * 10 ^ (d.exponent - (e - ds.length)).toNat) :
    d.SpelledBy (whole ++ pointed ds ++ tail) where
  numeral := by
    refine ⟨whole, pointed ds, tail, rfl, hw, ?_, hx⟩
    by_cases hds : ds = []
    · exact Or.inl (if_pos hds)
    · exact Or.inr ⟨ds, if_neg hds, hds, hd⟩
  read negative := ⟨_, hle, hmin, by rw [Decimal.unsigned?_parts negative hw.1 hd ht, hvalue]⟩

namespace NumberLayout
open Digits (spelledBy_parts)

theorem ofDigitChars_zeros (n places : Nat) :
    Nat.ofDigitChars 10 (Nat.toDigits 10 n ++ List.replicate places '0') 0 = n * 10 ^ places := by
  rw [Nat.ofDigitChars_append, Nat.ofDigitChars_toDigits (by decide) (by decide),
    Nat.ofDigitChars_replicate_zero, Nat.mul_comm]

theorem isWhole_of_head? {cs : List Char} (h : IsDigits cs) (hhead : cs.head? ≠ some '0') :
    IsWhole cs := ⟨h, fun hzero => absurd hzero hhead⟩

theorem isWhole_zero : IsWhole ['0'] :=
  ⟨⟨by simp, fun c hc => by rw [List.mem_singleton.1 hc]; rfl⟩, fun _ => rfl⟩

section
variable (d : Digits)

/-- With digits after the point that make up the exponent, all digits make up the number. -/
theorem spelledBy_pointed {whole ds : List Char} (hneg : d.exponent < 0) (hw : IsWhole whole)
    (hd : AllDigits ds) (hlength : (ds.length : Int) = -d.exponent)
    (hvalue : Nat.ofDigitChars 10 (whole ++ ds) 0 = d.digits) :
    d.SpelledBy (whole ++ '.' :: ds) := by
  have hne : ds ≠ [] := by
    rw [← List.length_pos_iff]
    omega
  have hparts := spelledBy_parts d hw hd (Or.inl rfl) rfl (by omega) (by omega)
    (by
      have hzero : d.exponent - (0 - (ds.length : Int)) = 0 := by omega
      rw [hvalue, hzero, Int.toNat_zero, Nat.pow_zero, Nat.mul_one])
  rwa [List.append_nil, pointed, if_neg hne] at hparts

/-- The point stands among the digits. -/
theorem spelledBy_inside {places : Nat} (hplaces : (places : Int) = -d.exponent)
    (hzero : d.digits ≠ 0) (hneg : d.exponent < 0)
    (hlt : places < (Nat.toDigits 10 d.digits).length) :
    d.SpelledBy ((Nat.toDigits 10 d.digits).take ((Nat.toDigits 10 d.digits).length - places) ++
      '.' :: (Nat.toDigits 10 d.digits).drop ((Nat.toDigits 10 d.digits).length - places)) := by
  obtain ⟨-, hall⟩ := isDigits_toDigits d.digits
  refine spelledBy_pointed d hneg
    (isWhole_of_head? ⟨?_, fun c hc => hall c (List.mem_of_mem_take hc)⟩ ?_)
    (fun c hc => hall c (List.mem_of_mem_drop hc)) ?_ ?_
  · rw [← List.length_pos_iff, List.length_take]
    omega
  · rw [List.head?_take, if_neg (by omega)]
    exact head?_toDigits hzero
  · rw [List.length_drop]
    omega
  · rw [List.take_append_drop, Nat.ofDigitChars_toDigits (by decide) (by decide)]

/-- Zeros stand between the point and the digits. -/
theorem spelledBy_behind {places : Nat} (hplaces : (places : Int) = -d.exponent)
    (hneg : d.exponent < 0) (hge : (Nat.toDigits 10 d.digits).length ≤ places) :
    d.SpelledBy (['0'] ++ '.' :: (List.replicate (places - (Nat.toDigits 10 d.digits).length) '0' ++
      Nat.toDigits 10 d.digits)) := by
  refine spelledBy_pointed d hneg isWhole_zero
    ((allDigits_replicate_zero _).append (isDigits_toDigits d.digits).2) ?_ ?_
  · rw [List.length_append, List.length_replicate]
    omega
  · rw [← List.append_assoc, Nat.ofDigitChars_append, ← List.replicate_one,
      List.replicate_append_replicate, Nat.ofDigitChars_replicate_zero, Nat.mul_zero,
      Nat.ofDigitChars_toDigits (by decide) (by decide)]

/-- Zeros follow the digits, and there may be one more behind a point. -/
theorem spelledBy_whole (l : NumberLayout) (hzero : d.digits = 0 → d.exponent = 0)
    (hpos : 0 ≤ d.exponent) :
    d.SpelledBy (l.writePositional (Nat.toDigits 10 d.digits) d.exponent) := by
  obtain ⟨hne, hall⟩ := isDigits_toDigits d.digits
  have hwhole : IsWhole (Nat.toDigits 10 d.digits ++ List.replicate d.exponent.toNat '0') := by
    by_cases h : d.digits = 0
    · rw [h, hzero h]
      exact isWhole_toDigits 0
    · refine isWhole_of_head? ⟨by simp [hne], hall.append (allDigits_replicate_zero _)⟩ ?_
      rw [List.head?_append_of_ne_nil _ hne]
      exact head?_toDigits h
  rw [writePositional, if_pos hpos]
  cases l.pointZero with
  | true =>
    have hparts := spelledBy_parts d hwhole isWhole_zero.1.2 (Or.inl rfl) rfl
      (by simp; omega) (by simp)
      (by
        rw [List.append_assoc, ← List.replicate_succ', ofDigitChars_zeros]
        congr 2
        simp
        omega)
    simpa [pointed] using hparts
  | false =>
    have hnone : AllDigits [] := fun _ hc => by cases hc
    have hparts := spelledBy_parts d hwhole hnone (Or.inl rfl) rfl (by simpa using hpos) (by simp)
      (by rw [List.append_nil, ofDigitChars_zeros]; simp)
    simpa [pointed] using hparts

end

theorem writePositional_spelledBy (l : NumberLayout) (d : Digits)
    (hzero : d.digits = 0 → d.exponent = 0) :
    d.SpelledBy (l.writePositional (Nat.toDigits 10 d.digits) d.exponent) := by
  rcases Int.lt_or_le d.exponent 0 with hneg | hpos
  · have hplaces : ((-d.exponent).toNat : Int) = -d.exponent := Int.toNat_of_nonneg (by omega)
    rw [writePositional, if_neg (by omega)]
    simp only
    split
    · exact spelledBy_inside d hplaces (fun h => absurd (hzero h) hneg.ne) hneg ‹_›
    · exact spelledBy_behind d hplaces hneg (Nat.le_of_not_lt ‹_›)
  · exact spelledBy_whole d l hzero hpos

theorem writeExponent_spelledBy (l : NumberLayout) {d : Digits} (h : d.digits ≠ 0) :
    d.SpelledBy (l.writeExponent (Nat.toDigits 10 d.digits)
      (d.exponent + (Nat.toDigits 10 d.digits).length - 1)) := by
  obtain ⟨hne, hall⟩ := isDigits_toDigits d.digits
  have hhead := head?_toDigits h
  have hvalue := Nat.ofDigitChars_toDigits (b := 10) (n := d.digits) (by decide) (by decide)
  generalize Nat.toDigits 10 d.digits = ds at hne hall hhead hvalue ⊢
  have hpos := List.length_pos_iff.2 hne
  have hlength : ((ds.drop 1).length : Int) = ds.length - 1 := by
    rw [List.length_drop]
    omega
  have hpointed : pointed (ds.drop 1) = if ds.length ≤ 1 then [] else '.' :: ds.drop 1 := by
    simp only [pointed, List.drop_eq_nil_iff]
  rw [writeExponent, ← hpointed]
  refine spelledBy_parts d (isWhole_of_head? ⟨?_, fun c hc => hall c (List.mem_of_mem_take hc)⟩ ?_)
    (fun c hc => hall c (List.mem_of_mem_drop hc)) (isExponent_written l.plus _)
    (Decimal.exponent?_written l.plus _) (by rw [hlength]; omega) (by rw [hlength]; omega) ?_
  · rw [← List.length_pos_iff, List.length_take]
    omega
  · rw [List.head?_take, if_neg (by decide)]
    exact hhead
  · rw [List.take_append_drop, hvalue, hlength]
    have hzero : d.exponent - (d.exponent + ds.length - 1 - (ds.length - 1 : Int)) = 0 := by omega
    rw [hzero, Int.toNat_zero, Nat.pow_zero, Nat.mul_one]

/-- Digits that the text of a number spells, up to its sign. -/
theorem write_spelledBy (l : NumberLayout) {f : Binary64} (hf : f.isFinite = true) :
    ∃ (d : Digits) (cs : List Char),
      l.write f = (if f.negative then ['-'] else []) ++ cs ∧ d.SpelledBy cs ∧
      if f.isZero then d.digits = 0
      else f.Near (d.digits * 10 ^ d.exponent / 2 ^ f.exponent) ∧
        -400 ≤ d.exponent ∧ d.exponent ≤ 400 := by
  unfold write
  cases hz : f.isZero with
  | true => exact ⟨⟨0, 0⟩, _, rfl, writePositional_spelledBy l ⟨0, 0⟩ fun _ => rfl, rfl⟩
  | false =>
    have hnear := Digits.near_shortest l.tie hf hz
    have hdigits : (Digits.shortest l.tie f).digits ≠ 0 := by
      intro h
      have hpos := hnear.1.pos hf hz
      rw [h] at hpos
      norm_num at hpos
    refine ⟨Digits.shortest l.tie f, _, rfl, ?_, hnear⟩
    simp only [Bool.false_eq_true, if_false]
    split
    · exact writePositional_spelledBy l _ fun h => absurd h hdigits
    · exact writeExponent_spelledBy l hdigits

theorem isNumeral_write (l : NumberLayout) {f : Binary64} (hf : f.isFinite = true) :
    IsNumeral (l.write f) := by
  obtain ⟨d, cs, hwrite, hspelled, -⟩ := l.write_spelledBy hf
  rw [hwrite]
  cases f.negative with
  | true => exact Or.inr ⟨cs, rfl, hspelled.numeral⟩
  | false => exact Or.inl hspelled.numeral

end NumberLayout

/-! ## Reading back -/

namespace Binary64

theorem ofMagnitude_self (f : Binary64) : ofMagnitude f.negative f.magnitude = f := by
  have hbits := f.bits_toNat
  have hsum : (if f.negative = true then Nat.pow 2 63 + f.magnitude else f.magnitude) =
      f.bits.toNat := by
    rw [hbits]
    split <;> omega
  rw [ofMagnitude, hsum, UInt64.ofNat_toNat]

/-- A number is the nearest to a decimal in its rounding interval. -/
theorem nearest_of_near {f : Binary64} (hf : f.isFinite = true) (hz : f.isZero = false)
    {d : Decimal} (hneg : d.negative = f.negative)
    (h : f.Near (d.coefficient * 10 ^ d.exponent / 2 ^ f.exponent))
    (hlow : -400 ≤ d.exponent) (hhigh : d.exponent ≤ 400) : d.nearest = f := by
  have hcoefficient : d.coefficient ≠ 0 := by
    intro hzero
    have hpos := h.pos hf hz
    rw [hzero] at hpos
    norm_num at hpos
  have hvalue : (d.coefficient : ℚ) * 10 ^ d.exponent / 2 ^ f.exponent * 2 ^ f.exponent =
      ((d.coefficient * Nat.pow 10 d.exponent.toNat : Nat) : ℚ) /
        ((Nat.pow 10 (-d.exponent).toNat : Nat) : ℚ) := by
    rw [div_mul_cancel₀ _ (by positivity), show (10 : ℚ) = ((10 : Nat) : ℚ) by norm_num,
      zpow_eq_div (by decide)]
    simp only [Nat.pow_eq, Nat.cast_mul]
    ring
  have hden : 0 < Nat.pow 10 (-d.exponent).toNat := Nat.pow_pos (by decide)
  rw [Decimal.nearest, if_neg (by omega), if_neg (by omega),
    nearestMagnitude_of_near hf hz hden hvalue h, hneg, ofMagnitude_self]

theorem decimal_read?_signed {cs : List Char} (negative : Bool) (h : IsUnsigned cs) :
    Decimal.read? ((if negative then ['-'] else []) ++ cs) = Decimal.unsigned? negative cs := by
  cases negative with
  | true => rfl
  | false =>
    obtain ⟨c, ds, rfl, hc⟩ := h.exists_cons
    rw [if_neg (by decide), List.nil_append]
    unfold Decimal.read?
    split
    · rename_i heq
      rw [(List.cons.inj heq).1] at hc
      cases hc
    · rename_i heq
      rw [(List.cons.inj heq).1] at hc
      cases hc
    · rfl

/-- A finite number comes back from its text bit for bit, whatever the layout. -/
theorem read?_write (l : NumberLayout) {f : Binary64} (hf : f.isFinite = true) :
    read? (l.write f) = some f := by
  obtain ⟨d, cs, hwrite, hspelled, hvalue⟩ := l.write_spelledBy hf
  obtain ⟨e, hle, hmin, hread⟩ := hspelled.read f.negative
  have hnearest : Decimal.nearest ⟨f.negative, d.digits * 10 ^ (d.exponent - e).toNat, e⟩ = f := by
    cases hz : f.isZero with
    | true =>
      rw [hz, if_pos rfl] at hvalue
      have hmagnitude : f.magnitude = 0 := of_decide_eq_true hz
      rw [Decimal.nearest, if_pos (Or.inl (by simp [hvalue])), ← hmagnitude, ofMagnitude_self]
    | false =>
      rw [hz, if_neg (by decide)] at hvalue
      obtain ⟨hnear, hlow, hhigh⟩ := hvalue
      refine nearest_of_near hf hz rfl ?_ (by show -400 ≤ e; omega) (by show e ≤ 400; omega)
      have hscaled : ((d.digits * 10 ^ (d.exponent - e).toNat : Nat) : ℚ) * 10 ^ e =
          d.digits * 10 ^ d.exponent := by
        push_cast
        rw [mul_assoc, ← zpow_natCast, ← zpow_add₀ (by norm_num)]
        congr 2
        omega
      rw [hscaled]
      exact hnear
  rw [read?, hwrite, decimal_read?_signed _ hspelled.numeral, hread, Option.map_some, hnearest,
    Option.filter_some, if_pos hf]

end Binary64

end Keyset
