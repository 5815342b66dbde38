import Keyset.Page.Fetched
import Keyset.Proofs.Order.Json
import Keyset.Proofs.Reader.Relay

/-! # Fetched pages come back from their documents

A fetched page is written with its rows, both of its positions and its counters.
A reader recovers what was written if all numbers in it are finite and refuses it
otherwise (`Recovers`), and so do the readers of lists and of what may be missing. So the
text of a page of finite numbers belongs to that page only, even among pages that
differ from it by a field without a value where it has a field that holds null
(`text_recovered_iff`). -/

namespace Keyset
open Json

/-! ## What is recovered -/

namespace Json.Document

variable {α : Type} {f : Document → Option α} {g : α → Document} {passes : α → Bool}

/-- What is written is read back if it passes, and refused if not. -/
def Recovers (f : Document → Option α) (g : α → Document) (passes : α → Bool) : Prop :=
  ∀ a, f (g a) = if passes a then some a else none

theorem Recovers.list (h : Recovers f g passes) (as : List α) :
    (array (as.map g)).list? f = if as.all passes then some as else none := by
  rw [list?]
  induction as with
  | nil => rfl
  | cons a as ih =>
    rw [List.map_cons, List.mapM_cons, h a, ih, List.all_cons]
    cases passes a <;> cases as.all passes <;> rfl

/-- What may be missing is told from `null`, which is how a missing thing is spelled. -/
theorem Recovers.optionField (h : Recovers f g passes) (hg : ∀ a, g a ≠ .null) (a : Option α) :
    optionField? f (some (ofOption g a)) = if a.all passes then some a else none := by
  cases a with
  | none => rfl
  | some a =>
    have hread : option? f (g a) = (f (g a)).map some := by
      unfold option?
      split
      · rename_i hnull
        exact absurd hnull (hg a)
      · rfl
    rw [ofOption, optionField?, hread, h a, Option.all_some]
    cases passes a <;> rfl

/-- What is made of a text that was written. -/
theorem Recovers.ofText? (h : Recovers f g passes) (hg : ∀ a, (g a).Spelled) (a : α) :
    (Document.ofText? (g a).text).bind f = if passes a then some a else none := by
  rw [ofText?_text (hg a), Option.bind_some]
  exact h a

theorem Recovers.eq_of_text (h : Recovers f g passes) (hg : ∀ a, (g a).Spelled) {a b : α}
    (ha : passes a = true) (ht : (g b).text = (g a).text) : b = a := by
  have hread := h.ofText? hg a
  rw [← ht, h.ofText? hg b, if_pos ha] at hread
  split at hread
  · exact Option.some.inj hread
  · cases hread

end Json.Document

open Json.Document (Recovers)

/-! ## Values and positions -/

theorem Value.recovers : Recovers ofDocument? document isFinite := by
  intro v
  cases h : v.isFinite with
  | true => exact ofDocument?_document h
  | false => exact ofDocument?_of_not_finite h

theorem Value.document_ne_null (v : Value) : v.document ≠ .null := by
  cases v <;> exact nofun

theorem Cursor.recovers : Recovers ofDocument? document isFinite := by
  intro c
  cases h : c.isFinite with
  | true => exact ofDocument?_document h
  | false => exact ofDocument?_of_not_finite h

theorem Cursor.document_ne_null (c : Cursor) : c.document ≠ .null := nofun

/-! ## Rows -/

namespace Field

/-- The field holds no NaN and no infinity. -/
def isFinite (f : Field) : Bool := f.value.all (·.isFinite)

theorem ofDocument?_record (name value : Document) :
    ofDocument? (.record [("name", name), ("value", value)]) = (do
      return ⟨← name.string?, ← Document.optionField? Value.ofDocument? (some value)⟩) := rfl

theorem recovers : Recovers ofDocument? document isFinite := by
  intro f
  rw [document, ofDocument?_record, Value.recovers.optionField Value.document_ne_null, isFinite]
  cases f.value.all (·.isFinite) <;> rfl

theorem spelled_document (f : Field) : f.document.Spelled := by
  refine Document.spelled_record fun m hm => ?_
  simp only [List.mem_cons, List.not_mem_nil, or_false] at hm
  rcases hm with rfl | rfl
  · exact Document.spelled_ofString _
  · exact Document.spelled_ofOption Value.spelled_document _

end Field

namespace Row

theorem ofDocument?_record (entity fields : Document) :
    ofDocument? (.record [("entity", entity), ("field_values", fields)]) = (do
      return ⟨← entity.string?, ← fields.list? Field.ofDocument?⟩) := rfl

theorem recovers : Recovers ofDocument? document isFinite := by
  intro row
  rw [document, ofDocument?_record, Field.recovers.list]
  show _ = if row.fields.all Field.isFinite then some row else none
  cases row.fields.all Field.isFinite <;> rfl

theorem spelled_document (row : Row) : row.document.Spelled := by
  refine Document.spelled_record fun m hm => ?_
  simp only [List.mem_cons, List.not_mem_nil, or_false] at hm
  rcases hm with rfl | rfl
  · exact Document.spelled_ofString _
  · refine Document.spelled_array fun d hd => ?_
    obtain ⟨f, -, rfl⟩ := List.mem_map.mp hd
    exact f.spelled_document

end Row

/-! ## Pages -/

namespace FetchedPage

/-- No row and no position of the page holds a NaN or an infinity. -/
def isFinite (p : FetchedPage) : Bool :=
  p.rows.all (·.isFinite) && p.position.all (·.isFinite) && p.next.all (·.isFinite)

theorem ofDocument?_record (rows position next reachedEnd rowCount milliseconds : Document) :
    ofDocument? (.record [("rows", rows), ("lower_bounds", position), ("next_cursor", next),
        ("reached_end", reachedEnd), ("row_count", rowCount), ("took_ms", milliseconds)]) = (do
      return ⟨← rows.list? Row.ofDocument?,
        ← Document.optionField? Cursor.ofDocument? (some position),
        ← Document.optionField? Cursor.ofDocument? (some next),
        ← reachedEnd.bool?, ← rowCount.uint64?,
        ← (milliseconds.below? (Nat.pow 2 128)).map (BitVec.ofNat 128)⟩) := rfl

theorem recovers : Recovers ofDocument? document isFinite := by
  intro p
  have hposition := Cursor.recovers.optionField Cursor.document_ne_null
  have htime : ((Document.ofNat p.milliseconds.toNat).below? (Nat.pow 2 128)).map
      (BitVec.ofNat 128) = some p.milliseconds := by
    rw [Document.below?_ofNat p.milliseconds.isLt, Option.map_some, BitVec.ofNat_toNat,
      BitVec.setWidth_eq]
  rw [document, ofDocument?_record, Row.recovers.list, hposition, hposition,
    Document.uint64?_ofNat, htime, isFinite]
  cases p.rows.all (·.isFinite) <;> cases p.position.all (·.isFinite) <;>
    cases p.next.all (·.isFinite) <;> rfl

theorem spelled_document (p : FetchedPage) : p.document.Spelled := by
  refine Document.spelled_record fun m hm => ?_
  simp only [List.mem_cons, List.not_mem_nil, or_false] at hm
  rcases hm with rfl | rfl | rfl | rfl | rfl | rfl
  · refine Document.spelled_array fun d hd => ?_
    obtain ⟨row, -, rfl⟩ := List.mem_map.mp hd
    exact row.spelled_document
  · exact Document.spelled_ofOption Cursor.spelled_document _
  · exact Document.spelled_ofOption Cursor.spelled_document _
  · rw [Document.Spelled]; trivial
  · exact Document.spelled_ofNat _
  · exact Document.spelled_ofNat _

/-- **Pages survive being written.** The text of a page is read as that page exactly if all numbers
in it are finite, whatever its rows, positions and counters are otherwise, and then it is the text
of no other page. In particular a field without a value is not written like one that holds null. -/
theorem text_recovered_iff (p : FetchedPage) :
    ((Document.ofText? p.document.text).bind ofDocument? = some p ↔ p.isFinite = true) ∧
    (p.isFinite = true → ∀ q : FetchedPage, q.document.text = p.document.text → q = p) ∧
    ∀ name, (Field.mk name none).document.text ≠ (Field.mk name (some .null)).document.text := by
  refine ⟨?_, fun hp q hq => recovers.eq_of_text spelled_document hp hq, fun name hname => ?_⟩
  · rw [recovers.ofText? spelled_document]
    cases p.isFinite <;> simp
  · have hnull : (Field.mk name (some .null)).isFinite = true := rfl
    have hsame := Field.recovers.eq_of_text Field.spelled_document hnull hname
    cases hsame

end FetchedPage

namespace Post

/-- A page with an empty position behind it, of a post whose fields share a name: one has no value,
one holds null, and one holds a negative zero. -/
def unusual : FetchedPage where
  rows := [⟨"posts", [⟨"note \"é\"", none⟩, ⟨"note \"é\"", some .null⟩,
    ⟨"", some (.float ⟨0x8000000000000000⟩)⟩,
    ⟨"at", some (.timestamp { seconds := 1435708799, nanos := 1999999999 })⟩]⟩]
  position := some midnight
  next := some .empty
  reachedEnd := false
  rowCount := 18446744073709551615
  milliseconds := 340282366920938463463374607431768211455

theorem unusual_recovered :
    (Document.ofText? unusual.document.text).bind FetchedPage.ofDocument? = some unusual ∧
    ∀ q : FetchedPage, q.document.text = unusual.document.text → q = unusual := by
  have hfinite : unusual.isFinite = true := by decide
  obtain ⟨hread, honly, -⟩ := FetchedPage.text_recovered_iff unusual
  exact ⟨hread.mpr hfinite, honly hfinite⟩

end Post

end Keyset
