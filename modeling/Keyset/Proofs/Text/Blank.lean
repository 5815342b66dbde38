import Keyset.Text.Blank
import Mathlib.Data.List.TakeWhile

/-! # Trimming

The visible characters below 128 are not blank, digits among them. Trimming a
text that has no blanks, with blanks around it, gives the text (`trim_blanks`).
What is trimmed stays as it is (`strip_strip`). -/

namespace Keyset.Text

theorem isBlank_of_visible {c : Char} (hlow : 32 < c.toNat) (hhigh : c.toNat < 128) :
    isBlank c = false := by
  simp only [isBlank, blankRanges, List.any_cons, List.any_nil, Bool.or_false,
    Bool.or_eq_false_iff, Bool.and_eq_false_iff, decide_eq_false_iff_not]
  omega

theorem isBlank_of_isDigit {c : Char} (h : c.isDigit = true) : isBlank c = false := by
  simp only [Char.isDigit, Bool.and_eq_true, decide_eq_true_eq, UInt32.le_iff_toNat_le,
    Char.toNat_val] at h
  have hlow : 48 ≤ c.toNat := h.1
  have hhigh : c.toNat ≤ 57 := h.2
  exact isBlank_of_visible (by omega) (by omega)

theorem trimStart_cons {c : Char} (cs : List Char) (h : isBlank c = false) :
    trimStart (c :: cs) = c :: cs := by
  rw [trimStart, List.dropWhile_cons, h]
  rfl

theorem trimStart_append {before : List Char} (cs : List Char)
    (h : ∀ c ∈ before, isBlank c = true) : trimStart (before ++ cs) = trimStart cs :=
  List.dropWhile_append_of_pos h

theorem trimEnd_append {after : List Char} (cs : List Char)
    (h : ∀ c ∈ after, isBlank c = true) : trimEnd (cs ++ after) = trimEnd cs := by
  rw [trimEnd, List.reverse_append,
    List.dropWhile_append_of_pos fun c hc => h c (List.mem_reverse.mp hc), trimEnd]

theorem trimEnd_concat {c : Char} (cs : List Char) (h : isBlank c = false) :
    trimEnd (cs ++ [c]) = cs ++ [c] := by
  rw [trimEnd, List.reverse_append, List.reverse_singleton, List.singleton_append,
    List.dropWhile_cons, h]
  simp

theorem trim_blanks {before cs after : List Char} (hb : ∀ c ∈ before, isBlank c = true)
    (ha : ∀ c ∈ after, isBlank c = true) (hc : ∀ c ∈ cs, isBlank c = false) (hne : cs ≠ []) :
    trim (before ++ cs ++ after) = cs := by
  have hstart : trimStart (cs ++ after) = cs ++ after := by
    cases cs with
    | nil => exact absurd rfl hne
    | cons c cs => exact trimStart_cons _ (hc c (by simp))
  obtain ⟨front, last, rfl⟩ : ∃ front last, cs = front ++ [last] :=
    ⟨cs.dropLast, cs.getLast hne, (List.dropLast_concat_getLast hne).symm⟩
  rw [trim, List.append_assoc, trimStart_append _ hb, hstart, trimEnd_append _ ha,
    trimEnd_concat _ (hc last (by simp))]

theorem trimStart_trimStart (cs : List Char) : trimStart (trimStart cs) = trimStart cs := by
  induction cs with
  | nil => rfl
  | cons c cs ih =>
    cases hb : isBlank c with
    | true =>
      have hskip : trimStart (c :: cs) = trimStart cs := List.dropWhile_cons_of_pos hb
      rw [hskip, ih]
    | false => rw [trimStart_cons cs hb, trimStart_cons cs hb]

theorem trimEnd_trimEnd (cs : List Char) : trimEnd (trimEnd cs) = trimEnd cs := by
  have h := trimStart_trimStart cs.reverse
  simp only [trimStart] at h
  rw [trimEnd, trimEnd, List.reverse_reverse, h]

/-- Nothing is gone at the start of a text that loses its end. -/
theorem trimStart_trimEnd {cs : List Char} (h : trimStart cs = cs) :
    trimStart (trimEnd cs) = trimEnd cs := by
  obtain ⟨rest, hrest⟩ : trimEnd cs <+: cs := by
    have hsuffix := List.reverse_prefix.mpr (List.dropWhile_suffix (l := cs.reverse) isBlank)
    rwa [List.reverse_reverse] at hsuffix
  cases hd : trimEnd cs with
  | nil => rfl
  | cons d ds =>
    rw [hd, List.cons_append] at hrest
    cases hb : isBlank d with
    | false => exact trimStart_cons ds hb
    | true =>
      -- the blank would have been gone from the whole text
      rw [← hrest, trimStart, List.dropWhile_cons, hb, if_pos rfl] at h
      have hlength := congrArg List.length h
      have hle := (List.dropWhile_suffix (l := ds ++ rest) isBlank).length_le
      rw [List.length_cons] at hlength
      omega

theorem trim_trim (cs : List Char) : trim (trim cs) = trim cs := by
  rw [trim, trim, trimStart_trimEnd (trimStart_trimStart cs), trimEnd_trimEnd]

theorem strip_strip (s : String) : strip (strip s) = strip s := by
  rw [strip, strip, String.toList_ofList, trim_trim]

/-- What trimming removes altogether is blank. -/
theorem isBlank_of_trim_eq_nil {cs : List Char} (h : trim cs = []) :
    ∀ c ∈ cs, isBlank c = true := by
  rw [trim, trimEnd, List.reverse_eq_nil_iff, List.dropWhile_eq_nil_iff] at h
  intro c hc
  rw [← List.takeWhile_append_dropWhile (p := isBlank) (l := cs), List.mem_append] at hc
  rcases hc with hstart | hrest
  · exact List.mem_takeWhile_imp hstart
  · exact h c (List.mem_reverse.mpr hrest)

theorem trim_sublist (cs : List Char) : (trim cs).Sublist cs := by
  have hend : (trimEnd (trimStart cs)).Sublist (trimStart cs) := by
    have h := (List.dropWhile_sublist (l := (trimStart cs).reverse) isBlank).reverse
    rwa [List.reverse_reverse] at h
  exact hend.trans (List.dropWhile_sublist isBlank)

end Keyset.Text
