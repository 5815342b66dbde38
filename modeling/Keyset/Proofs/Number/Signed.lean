import Keyset.Proofs.Number.Digits
import Mathlib.Data.UInt

/-! # Integers as text

Decimal digits denote an integer, possibly behind a sign (`Denotes`), and a text
denotes at most one. A reader of some width reads what the text denotes if that
fits the width, whatever zeros are in front (`int64?_eq_some_iff`,
`uint64?_of_denotes`). An unsigned integer has no minus, not even before zero. -/

namespace Keyset.Number

/-- Decimal digits, behind a sign or not, and the integer that they denote. -/
inductive Denotes : List Char → Int → Prop
  | unsigned {ds : List Char} (h : IsDigits ds) : Denotes ds (Nat.ofDigitChars 10 ds 0)
  | plus {ds : List Char} (h : IsDigits ds) : Denotes ('+' :: ds) (Nat.ofDigitChars 10 ds 0)
  | minus {ds : List Char} (h : IsDigits ds) : Denotes ('-' :: ds) (-(Nat.ofDigitChars 10 ds 0 : Nat))

variable {cs : List Char} {n : Int}

theorem natural?_of_isDigits {ds : List Char} (h : IsDigits ds) :
    natural? ds = some (Nat.ofDigitChars 10 ds 0) :=
  natural?_eq_some_iff.mpr ⟨h.1, h.2, rfl⟩

theorem isDigits_of_natural? {ds : List Char} {k : Nat} (h : natural? ds = some k) :
    IsDigits ds ∧ Nat.ofDigitChars 10 ds 0 = k := by
  obtain ⟨hne, hall, hk⟩ := natural?_eq_some_iff.mp h
  exact ⟨⟨hne, hall⟩, hk⟩

/-- No sign is a digit. -/
theorem IsDigits.ne_sign {ds tail : List Char} {sign : Char} (h : IsDigits ds)
    (hsign : sign.isDigit = false) : ds ≠ sign :: tail := by
  rintro rfl
  have hdigit : sign.isDigit = true := h.2 sign List.mem_cons_self
  rw [hsign] at hdigit
  cases hdigit

theorem integer?_of_isDigits {ds : List Char} (h : IsDigits ds) :
    integer? ds = some (Nat.ofDigitChars 10 ds 0 : Int) := by
  unfold integer?
  split
  · exact absurd rfl (h.ne_sign rfl)
  · exact absurd rfl (h.ne_sign rfl)
  · rw [natural?_of_isDigits h]
    rfl

/-- What is read of a text is what it denotes. -/
theorem integer?_eq_some_iff : integer? cs = some n ↔ Denotes cs n := by
  constructor
  · intro h
    unfold integer? at h
    split at h <;> obtain ⟨k, hk, rfl⟩ := Option.map_eq_some_iff.mp h <;>
      obtain ⟨hdigits, rfl⟩ := isDigits_of_natural? hk
    · exact .plus hdigits
    · exact .minus hdigits
    · exact .unsigned hdigits
  · intro h
    cases h with
    | unsigned h => exact integer?_of_isDigits h
    | plus h => rw [integer?, natural?_of_isDigits h]; rfl
    | minus h => rw [integer?, natural?_of_isDigits h]; rfl

theorem Denotes.unique {m : Int} (h : Denotes cs n) (hm : Denotes cs m) : n = m := by
  have hread := integer?_eq_some_iff.mpr h
  rw [integer?_eq_some_iff.mpr hm] at hread
  exact (Option.some.inj hread).symm

theorem Denotes.ne_nil (h : Denotes cs n) : cs ≠ [] := by
  cases h with
  | unsigned h => exact h.1
  | plus | minus => exact List.cons_ne_nil _ _

theorem int64?_eq_some_iff {i : Int64} : int64? cs = some i ↔ Denotes cs i.toInt := by
  have hmin : Int64.minValue.toInt = -2 ^ 63 := rfl
  have hmax : Int64.maxValue.toInt = 2 ^ 63 - 1 := rfl
  rw [← integer?_eq_some_iff]
  constructor
  · intro h
    obtain ⟨n, hn, hfit⟩ := Option.bind_eq_some_iff.mp h
    split at hfit
    · rename_i hrange
      rw [hmin, hmax] at hrange
      rw [hn, ← Option.some.inj hfit, Int64.toInt_ofInt_of_le hrange.1 (by omega)]
    · cases hfit
  · intro h
    rw [int64?, h]
    show (if Int64.minValue.toInt ≤ i.toInt ∧ i.toInt ≤ Int64.maxValue.toInt then
      some (Int64.ofInt i.toInt) else none) = some i
    rw [if_pos ⟨i.minValue_le_toInt, i.toInt_le⟩, Int64.ofInt_toInt]

theorem fit_eq_some_iff {k? : Option Nat} {u : UInt64} :
    uint64?.fit k? = some u ↔ k? = some u.toNat := by
  constructor
  · intro h
    obtain ⟨k, rfl, hfit⟩ := Option.bind_eq_some_iff.mp h
    split at hfit
    · rename_i hk
      rw [← Option.some.inj hfit, UInt64.toNat_ofNat_of_lt' hk]
    · cases hfit
  · rintro rfl
    rw [uint64?.fit, Option.bind_some, if_pos u.toNat_lt, UInt64.ofNat_toNat]

theorem denotes_of_uint64? {u : UInt64} (h : uint64? cs = some u) : Denotes cs u.toNat := by
  unfold uint64? at h
  split at h <;> obtain ⟨hdigits, hu⟩ := isDigits_of_natural? (fit_eq_some_iff.mp h) <;> rw [← hu]
  · exact .plus hdigits
  · exact .unsigned hdigits

/-- A positive integer that fits is read, with a plus or without one. -/
theorem uint64?_of_denotes {u : UInt64} (h : Denotes cs u.toNat) (hpos : 0 < u.toNat) :
    uint64? cs = some u := by
  generalize hn : (u.toNat : Int) = n at h
  cases h with
  | unsigned h =>
    have hvalue : Nat.ofDigitChars 10 cs 0 = u.toNat := Int.ofNat.inj hn.symm
    unfold uint64?
    split
    · exact absurd rfl (h.ne_sign rfl)
    · rw [fit_eq_some_iff, natural?_of_isDigits h, hvalue]
  | @plus ds h =>
    have hvalue : Nat.ofDigitChars 10 ds 0 = u.toNat := Int.ofNat.inj hn.symm
    rw [uint64?, fit_eq_some_iff, natural?_of_isDigits h, hvalue]
  | minus h => omega

end Keyset.Number
