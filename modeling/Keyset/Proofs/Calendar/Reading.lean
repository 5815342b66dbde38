import Keyset.Calendar.Reading
import Keyset.Proofs.Calendar.Date
import Keyset.Proofs.Number.Digits
import Keyset.Proofs.Text.Blank
import Mathlib.Algebra.Group.Nat.Defs

/-! # Dates and timestamps read back

Every number of a written date or time is padded, and either fills its width or
stands before a character that is no digit, so it is read whole
(`number?_padded`). With it each step of the relaxed readers gives back the part
that was written for it, and the parts make up the date or the moment again. -/

namespace Keyset.Calendar
open Number Text
open Date (padded yearText)

/-! ## Padded numbers -/

theorem trimStart_digits {ds : List Char} (rest : List Char) (h : IsDigits ds) :
    trimStart (ds ++ rest) = ds ++ rest := by
  obtain ⟨hne, hall⟩ := h
  cases ds with
  | nil => exact absurd rfl hne
  | cons d ds => exact trimStart_cons _ (isBlank_of_isDigit (hall d (by simp)))

theorem isDigits_padded (width n : Nat) : IsDigits (padded width n) :=
  ⟨by simp [padded, Nat.toDigits_ne_nil],
    (allDigits_replicate_zero _).append (isDigits_toDigits n).2⟩

theorem ofDigitChars_padded (width n : Nat) : Nat.ofDigitChars 10 (padded width n) 0 = n := by
  rw [padded, Nat.ofDigitChars_append, Nat.ofDigitChars_replicate_zero, Nat.mul_zero,
    Nat.ofDigitChars_toDigits (by decide) (by decide)]

theorem length_padded {width n : Nat} (hwidth : 0 < width) (h : n < 10 ^ width) :
    (padded width n).length = width := by
  have hle : (Nat.toDigits 10 n).length ≤ width :=
    (Nat.length_toDigits_le_iff (by decide) hwidth).2 h
  simp only [padded, List.length_append, List.length_replicate]
  omega

theorem number?_padded {width w n : Nat} {rest : List Char} (hle : (padded w n).length ≤ width)
    (hrest : (padded w n).length = width ∨ DigitFree rest) :
    number? width (padded w n ++ rest) = some (n, rest) := by
  have hdigits := isDigits_padded w n
  have hfree : DigitFree (rest.take (width - (padded w n).length)) := by
    rcases hrest with heq | hfree
    · rw [heq, Nat.sub_self, List.take_zero]
      exact digitFree_nil
    · intro c cs hcs
      cases rest with
      | nil => simp at hcs
      | cons d ds =>
        cases hk : width - (padded w n).length with
        | zero => simp [hk] at hcs
        | succ k =>
          rw [hk, List.take_succ_cons, List.cons.injEq] at hcs
          exact hfree c ds (by rw [hcs.1])
  have htake : ((padded w n ++ rest).take width).takeWhile Char.isDigit = padded w n := by
    rw [List.take_append, List.take_of_length_le hle, hdigits.2.takeWhile_append hfree]
  simp only [number?, htake, ofDigitChars_padded, List.drop_left]
  rw [if_neg (by simp [hdigits.1])]

/-- A number below 100 in two digits. -/
theorem number?_padded_two {n : Nat} (rest : List Char) (h : n < 100) :
    number? 2 (padded 2 n ++ rest) = some (n, rest) :=
  have hlength : (padded 2 n).length = 2 := length_padded (by decide) h
  number?_padded (Nat.le_of_eq hlength) (Or.inl hlength)

/-! ## Dates -/

theorem yearText_not_blank (year : Int) (rest : List Char) :
    trimStart (yearText year ++ rest) = yearText year ++ rest := by
  unfold yearText
  split
  · exact trimStart_cons _ (by decide)
  · split
    · exact trimStart_cons _ (by decide)
    · exact trimStart_digits _ (isDigits_padded 4 _)

theorem year?_yearText (year : Int) {rest : List Char} (h : DigitFree rest) :
    year? (yearText year ++ rest) = some (year, rest) := by
  have hsigned : number? (padded 4 year.natAbs ++ rest).length (padded 4 year.natAbs ++ rest) =
      some (year.natAbs, rest) :=
    number?_padded (by rw [List.length_append]; omega) (Or.inr h)
  unfold yearText
  split
  · have hvalue : -(year.natAbs : Int) = year := by omega
    simp only [List.cons_append, List.nil_append, year?, hsigned, Option.map_some, hvalue]
  · have hvalue : (year.natAbs : Int) = year := by omega
    split
    · simp only [List.cons_append, List.nil_append, year?, hsigned, Option.map_some, hvalue]
    · have hlength : (padded 4 year.natAbs).length = 4 := length_padded (by decide) (by omega)
      have hread : number? 4 (padded 4 year.natAbs ++ rest) = some (year.natAbs, rest) :=
        number?_padded (Nat.le_of_eq hlength) (Or.inl hlength)
      have hdigit : ∀ c cs, padded 4 year.natAbs ++ rest = c :: cs → c.isDigit = true := by
        intro c cs hcs
        cases hp : padded 4 year.natAbs with
        | nil => rw [hp] at hlength; cases hlength
        | cons d ds =>
          rw [hp, List.cons_append, List.cons.injEq] at hcs
          exact hcs.1 ▸ (isDigits_padded 4 year.natAbs).2 d (by rw [hp]; simp)
      rw [List.nil_append]
      unfold year?
      split
      · rename_i hcs
        exact absurd (hdigit _ _ hcs) (by decide)
      · rename_i hcs
        exact absurd (hdigit _ _ hcs) (by decide)
      · simp only [hread, Option.map_some, hvalue]

theorem daysInMonth_le (year : Int) (month : Nat) : Date.daysInMonth year month ≤ 31 := by
  unfold Date.daysInMonth
  split
  · split <;> decide
  all_goals decide

theorem civil?_text (beforeDash : Bool) (date : Date) (rest : List Char) :
    civil? beforeDash (date.text ++ rest) = some (date, rest) := by
  obtain ⟨-, hmonth, -, hday⟩ := date.civil_valid
  have hday := Nat.le_trans hday (daysInMonth_le _ _)
  have hdash (cs : List Char) :
      char? '-' (if beforeDash then trimStart ('-' :: cs) else '-' :: cs) = some cs := by
    rw [trimStart_cons cs (by decide), ite_self]
    rfl
  have hyear (cs : List Char) :
      year? (yearText date.civil.1 ++ '-' :: cs) = some (date.civil.1, '-' :: cs) :=
    year?_yearText _ (digitFree_cons (by decide))
  simp only [civil?, Date.text, List.append_assoc, List.cons_append]
  rw [yearText_not_blank, hyear]
  simp only [Option.bind_eq_bind, Option.bind_some, hdash]
  rw [trimStart_digits _ (isDigits_padded 2 _),
    number?_padded_two _ (Nat.lt_of_le_of_lt hmonth (by decide))]
  simp only [Option.bind_some, hdash]
  rw [trimStart_digits _ (isDigits_padded 2 _),
    number?_padded_two _ (Nat.lt_of_le_of_lt hday (by decide))]
  simp only [Option.bind_some, Date.ofCivil?_civil, Option.pure_def]

theorem relaxedDate?_text (date : Date) : relaxedDate? date.text = some date := by
  have h := civil?_text true date []
  rw [List.append_nil] at h
  rw [relaxedDate?, h]
  rfl

/-! ## Timestamps -/

theorem fraction?_padded {width n : Nat} {rest : List Char} (hwidth : 0 < width)
    (hnine : width ≤ 9) (hn : n < 10 ^ width) (h : DigitFree rest) :
    fraction? ('.' :: padded width n ++ rest) = some (n * 10 ^ (9 - width), rest) := by
  have hlength := length_padded hwidth hn
  have hread : number? 9 (padded width n ++ rest) = some (n, rest) :=
    number?_padded (by omega) (Or.inr h)
  have hnone : AllDigits [] := fun _ hc => by cases hc
  have hrest : rest.dropWhile Char.isDigit = rest := hnone.dropWhile_append h
  rw [List.cons_append, fraction?, hread]
  simp only [Option.bind_eq_bind, Option.bind_some, Option.pure_def, List.length_append, hlength,
    Nat.add_sub_cancel, hrest, Nat.pow_eq]

theorem fraction?_fractionText {nanos : Nat} {c : Char} {rest : List Char}
    (hn : nanos < 1000000000) (hc : c.isDigit = false) (hpoint : c ≠ '.') :
    fraction? (Timestamp.fractionText nanos ++ c :: rest) = some (nanos, c :: rest) := by
  have hfree : DigitFree (c :: rest) := digitFree_cons hc
  unfold Timestamp.fractionText
  split
  · rename_i hzero
    rw [hzero, List.nil_append]
    unfold fraction?
    split
    · rename_i heq
      exact absurd (List.cons.inj heq).1 hpoint
    · rfl
  · split
    · rw [fraction?_padded (by decide) (by decide) (by omega) hfree,
        show nanos / 1000000 * 10 ^ (9 - 3) = nanos by omega]
    · split
      · rw [fraction?_padded (by decide) (by decide) (by omega) hfree,
          show nanos / 1000 * 10 ^ (9 - 6) = nanos by omega]
      · rw [fraction?_padded (by decide) (by decide) (by omega) hfree, Nat.sub_self,
          Nat.pow_zero, Nat.mul_one]

/-- The seconds of the day. -/
theorem clock?_parts (t : Timestamp) (s : Nat) (hs : s = (t.seconds % 86400).toNat) :
    clock? (s / 3600) (s / 60 % 60) (s % 60 + if 1000000000 ≤ t.nanos then 1 else 0)
      (t.nanos % 1000000000) = some ⟨s, t.nanos⟩ := by
  have hlt := t.nanos_lt
  by_cases hleap : 1000000000 ≤ t.nanos
  · have hlast := t.leap hleap
    have hsecond : s % 60 + 1 = 60 := by omega
    rw [clock?, if_pos hleap, if_pos (by omega), if_pos hsecond,
      show s / 3600 * 3600 + s / 60 % 60 * 60 + 59 = s by omega,
      show t.nanos % 1000000000 + 1000000000 = t.nanos by omega]
  · rw [clock?, if_neg hleap, if_pos (by omega), if_neg (by omega),
      show s / 3600 * 3600 + s / 60 % 60 * 60 + (s % 60 + 0) = s by omega,
      Nat.mod_eq_of_lt (by omega)]

theorem moment?_parts (t : Timestamp) :
    moment? t.date ⟨(t.seconds % 86400).toNat, t.nanos⟩ 0 = some t := by
  have hsecond : t.date.day * 86400 + ((t.seconds % 86400).toNat : Int) - 0 = t.seconds := by
    show t.seconds / 86400 * 86400 + ((t.seconds % 86400).toNat : Int) - 0 = t.seconds
    omega
  rw [moment?, Timestamp.ofParts?]
  simp only [hsecond]
  rw [dif_pos ⟨⟨t.first_le, t.lt_last⟩, t.nanos_lt, t.leap⟩]

theorem relaxedTimestamp?_text (t : Timestamp) : relaxedTimestamp? (t.text 'T' "Z") = some t := by
  have hcolon (cs : List Char) : char? ':' (trimStart (':' :: cs)) = some cs := by
    rw [trimStart_cons cs (by decide)]
    rfl
  have hsep (cs : List Char) : separator? ('T' :: cs) = some cs := rfl
  have hzone : relaxedZone? (trimStart "Z".toList) = some (0, []) := by decide
  have hfraction : fraction? (Timestamp.fractionText (t.nanos % 1000000000) ++ "Z".toList) =
      some (t.nanos % 1000000000, "Z".toList) :=
    fraction?_fractionText (Nat.mod_lt _ (by decide)) (by decide) (by decide)
  obtain ⟨s, hs⟩ : ∃ s, s = (t.seconds % 86400).toNat := ⟨_, rfl⟩
  have hlt : s < 86400 := by omega
  have hclock := clock?_parts t s hs
  have hsecond : s % 60 + (if 1000000000 ≤ t.nanos then 1 else 0) < 100 := by split <;> omega
  simp only [relaxedTimestamp?, Timestamp.text, Timestamp.clockText, ← hs, List.append_assoc,
    List.cons_append]
  rw [civil?_text]
  simp only [Option.bind_eq_bind, Option.bind_some, hsep]
  rw [trimStart_digits _ (isDigits_padded 2 _), number?_padded_two _ (by omega)]
  simp only [Option.bind_some, hcolon]
  rw [trimStart_digits _ (isDigits_padded 2 _), number?_padded_two _ (by omega)]
  simp only [Option.bind_some, hcolon]
  rw [trimStart_digits _ (isDigits_padded 2 _), number?_padded_two _ hsecond]
  simp only [Option.bind_some, hfraction, hclock, hzone]
  rw [if_pos (by rfl), hs, moment?_parts]

end Keyset.Calendar
