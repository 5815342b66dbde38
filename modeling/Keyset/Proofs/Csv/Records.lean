import Keyset.Csv.Records
import Keyset.Proofs.Text.Utf8

/-! # The records of a text

What separates fields and records, and the quote, are single bytes below 128, and
no other character of a text has such a byte. So a scan reads a text character by
character: each is dropped, kept in the field as a whole, or ends a field
(`scan_char`). The fields of a text's records are therefore texts
(`records_text`). -/

namespace Keyset.Csv

open Text

/-! ## One byte, one character -/

/-- A byte is dropped, kept in the field, or ends a field and maybe a record. -/
theorem scan_cons (place : Place) (fields : List (List UInt8)) (field : List UInt8) (b : UInt8)
    (bs : List UInt8) :
    (∃ place', scan place fields field (b :: bs) = scan place' fields field bs) ∨
    (∃ place', scan place fields field (b :: bs) = scan place' fields (b :: field) bs) ∨
    scan place fields field (b :: bs) = scan .fieldStart (field.reverse :: fields) [] bs ∨
    scan place fields field (b :: bs) = finish fields field :: scan .recordStart [] [] bs := by
  rw [scan.eq_def]
  cases place <;> simp only [scan.outside] <;> grind

/-- A byte from 128 on is kept. -/
theorem scan_kept {b : UInt8} (h : 128 ≤ b.toNat) (place : Place) (fields : List (List UInt8))
    (field bs : List UInt8) :
    ∃ place', scan place fields field (b :: bs) = scan place' fields (b :: field) bs := by
  have hne (n : UInt8) (hn : n.toNat < 128) : b ≠ n := fun heq => by
    rw [heq] at h
    omega
  have hquote : b ≠ quote := hne quote (by decide)
  have hcomma : b ≠ comma := hne comma (by decide)
  have hline : isLineEnd b = false := by
    rw [isLineEnd, Bool.or_eq_false_iff, decide_eq_false_iff_not, decide_eq_false_iff_not]
    exact ⟨hne 10 (by decide), hne 13 (by decide)⟩
  rw [scan.eq_def]
  cases place <;> simp only [scan.outside, hquote, hcomma, hline] <;> exact ⟨_, rfl⟩

theorem scan_kept_all {cs : List UInt8} (h : ∀ b ∈ cs, 128 ≤ b.toNat) (place : Place)
    (fields : List (List UInt8)) (field bs : List UInt8) :
    ∃ place', scan place fields field (cs ++ bs) = scan place' fields (cs.reverse ++ field) bs := by
  induction cs generalizing place field with
  | nil => exact ⟨place, rfl⟩
  | cons b cs ih =>
    obtain ⟨hb, hcs⟩ := List.forall_mem_cons.mp h
    obtain ⟨place₁, hfirst⟩ := scan_kept hb place fields field (cs ++ bs)
    obtain ⟨place₂, hrest⟩ := ih hcs place₁ (b :: field)
    refine ⟨place₂, ?_⟩
    rw [List.cons_append, hfirst, hrest, List.reverse_cons, List.append_assoc]
    rfl

/-- A character is dropped, kept in the field as a whole, or ends a field and maybe a record. -/
theorem scan_char (c : Char) (place : Place) (fields : List (List UInt8)) (field bs : List UInt8) :
    (∃ place', scan place fields field (String.utf8EncodeChar c ++ bs) =
      scan place' fields field bs) ∨
    (∃ place', scan place fields field (String.utf8EncodeChar c ++ bs) =
      scan place' fields ((String.utf8EncodeChar c).reverse ++ field) bs) ∨
    scan place fields field (String.utf8EncodeChar c ++ bs) =
      scan .fieldStart (field.reverse :: fields) [] bs ∨
    scan place fields field (String.utf8EncodeChar c ++ bs) =
      finish fields field :: scan .recordStart [] [] bs := by
  rcases Utf8.utf8EncodeChar_cases c with ⟨b, hb⟩ | hhigh
  · rw [hb]
    exact scan_cons place fields field b bs
  · exact Or.inr (Or.inl (scan_kept_all hhigh place fields field bs))

/-! ## Fields of a text -/

/-- The bytes of some text. -/
def IsText (bs : List UInt8) : Prop := ∃ cs, bs = Utf8.encode cs

theorem isText_nil : IsText [] := ⟨[], rfl⟩

theorem IsText.concat {bs : List UInt8} (h : IsText bs) (c : Char) :
    IsText (bs ++ String.utf8EncodeChar c) := by
  obtain ⟨cs, rfl⟩ := h
  refine ⟨cs ++ [c], ?_⟩
  rw [Utf8.encode, Utf8.encode, List.flatMap_append, List.flatMap_singleton]

theorem finish_text {fields : List (List UInt8)} {field : List UInt8}
    (hfields : ∀ f ∈ fields, IsText f) (hfield : IsText field.reverse) :
    ∀ f ∈ finish fields field, IsText f := by
  intro f hf
  rw [finish, List.mem_reverse, List.mem_cons] at hf
  rcases hf with rfl | hf
  · exact hfield
  · exact hfields f hf

/-- Nothing but whole characters comes into the fields of a text. -/
theorem scan_text (cs : List Char) (place : Place) {fields : List (List UInt8)}
    {field : List UInt8} (hfields : ∀ f ∈ fields, IsText f) (hfield : IsText field.reverse) :
    ∀ record ∈ scan place fields field (Utf8.encode cs), ∀ f ∈ record, IsText f := by
  -- at the start of a character, what is read of the current field is a text
  induction cs generalizing place fields field with
  | nil =>
    rw [Utf8.encode, List.flatMap_nil, scan.eq_def]
    dsimp only
    split
    · exact fun record hr => by cases hr
    · intro record hr
      rw [List.mem_singleton.mp hr]
      exact finish_text hfields hfield
  | cons c cs ih =>
    rw [Utf8.encode, List.flatMap_cons, ← Utf8.encode]
    rcases scan_char c place fields field (Utf8.encode cs) with
      ⟨place', hscan⟩ | ⟨place', hscan⟩ | hscan | hscan <;> rw [hscan]
    · exact ih place' hfields hfield
    · refine ih place' hfields ?_
      rw [List.reverse_append, List.reverse_reverse]
      exact hfield.concat c
    · exact ih .fieldStart (List.forall_mem_cons.mpr ⟨hfield, hfields⟩) isText_nil
    · refine List.forall_mem_cons.mpr ⟨finish_text hfields hfield, ?_⟩
      exact ih .recordStart (by simp) isText_nil

/-- The byte order mark is the character `U+FEFF`. -/
theorem encode_eq_mark {cs : List Char} {bs : List UInt8}
    (h : Utf8.encode cs = 0xEF :: 0xBB :: 0xBF :: bs) : ∃ rest, bs = Utf8.encode rest := by
  cases cs with
  | nil => cases h
  | cons c cs =>
    have hmark : String.utf8EncodeChar '\uFEFF' = [0xEF, 0xBB, 0xBF] := by decide
    have hbytes : String.utf8EncodeChar c ++ Utf8.encode cs =
        String.utf8EncodeChar '\uFEFF' ++ bs := by
      rw [hmark]
      exact h
    have hc : c = '\uFEFF' := by
      have hfirst := Utf8.first?_append c (Utf8.encode cs)
      rw [hbytes, Utf8.first?_append] at hfirst
      exact (Option.some.inj hfirst).symm
    rw [hc] at hbytes
    exact ⟨cs, (List.append_cancel_left hbytes).symm⟩

theorem records_text (cs : List Char) :
    ∀ record ∈ records (Utf8.encode cs), ∀ f ∈ record, IsText f := by
  unfold records
  split
  · rename_i bs hmark
    obtain ⟨rest, rfl⟩ := encode_eq_mark hmark
    exact scan_text rest .recordStart (by simp) isText_nil
  · exact scan_text cs .recordStart (by simp) isText_nil

end Keyset.Csv
