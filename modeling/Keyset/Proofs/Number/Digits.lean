import Keyset.Number.Whole

/-! # Decimal digits

A text of digits is taken off the front whole, by those who take the longest run
of digits, if no digit follows. The digits of a natural number start with zero
only if it is zero (`head?_toDigits`). -/

namespace Keyset.Number

def AllDigits (cs : List Char) : Prop := ∀ c ∈ cs, c.isDigit = true

/-- One digit or more. -/
def IsDigits (cs : List Char) : Prop := cs ≠ [] ∧ AllDigits cs

/-- The text does not start with a digit. -/
def DigitFree (rest : List Char) : Prop := ∀ c cs, rest = c :: cs → c.isDigit = false

theorem digitFree_nil : DigitFree [] := fun _ _ h => by cases h

theorem digitFree_cons {c : Char} {cs : List Char} (h : c.isDigit = false) :
    DigitFree (c :: cs) := by
  rintro d ds ⟨⟩
  exact h

theorem AllDigits.append {cs ds : List Char} (hc : AllDigits cs) (hd : AllDigits ds) :
    AllDigits (cs ++ ds) := fun _ h => (List.mem_append.1 h).elim (hc _) (hd _)

theorem allDigits_replicate_zero (n : Nat) : AllDigits (List.replicate n '0') := by
  intro c hc
  rw [List.eq_of_mem_replicate hc]
  rfl

theorem DigitFree.takeWhile_eq_nil {rest : List Char} (h : DigitFree rest) :
    rest.takeWhile Char.isDigit = [] := by
  cases rest with
  | nil => rfl
  | cons c cs => rw [List.takeWhile_cons, h c cs rfl]; rfl

theorem AllDigits.takeWhile_append {ds rest : List Char} (hd : AllDigits ds) (hr : DigitFree rest) :
    (ds ++ rest).takeWhile Char.isDigit = ds := by
  rw [List.takeWhile_append_of_pos hd, hr.takeWhile_eq_nil, List.append_nil]

theorem AllDigits.dropWhile_append {ds rest : List Char} (hd : AllDigits ds) (hr : DigitFree rest) :
    (ds ++ rest).dropWhile Char.isDigit = rest := by
  rw [List.dropWhile_append_of_pos hd]
  cases rest with
  | nil => rfl
  | cons c cs => rw [List.dropWhile_cons, hr c cs rfl]; rfl

/-! ## The digits of a number -/

theorem isDigits_toDigits (n : Nat) : IsDigits (Nat.toDigits 10 n) :=
  ⟨Nat.toDigits_ne_nil, fun _ hc => Nat.isDigit_of_mem_toDigits (by decide) (by decide) hc⟩

theorem digitChar_ne_zero : ∀ n < 10, n ≠ 0 → n.digitChar ≠ '0' := by decide

/-- The digits of a number other than zero do not start with zero. -/
theorem head?_toDigits {n : Nat} (h : n ≠ 0) : (Nat.toDigits 10 n).head? ≠ some '0' := by
  induction n using Nat.strongRecOn with
  | _ n ih =>
    rw [Nat.toDigits_eq_if (by decide)]
    split
    · rename_i hlt
      simpa using digitChar_ne_zero n hlt h
    · have hq : n / 10 ≠ 0 := by omega
      have hhead := ih (n / 10) (by omega) hq
      cases hd : Nat.toDigits 10 (n / 10) with
      | nil => exact absurd hd Nat.toDigits_ne_nil
      | cons d ds => rwa [hd] at hhead

end Keyset.Number
