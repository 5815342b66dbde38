import Keyset.Order.Json
import Keyset.Proofs.Cursor.Names
import Keyset.Proofs.Json.Read

/-! # Orderings are written as one thing and read as another

An ordering is written as an object around the array of its columns, and read
from the bare array. Columns come back from what they are written as
(`SortColumn.ofDocument?_document`), and so does an ordering from the array. The
object, which is what the ordering is written as, is refused
(`ofText?_document`). -/

namespace Keyset
open Json

/-! ## Columns -/

theorem Direction.ofDocument?_document (d : Direction) : ofDocument? d.document = some d := by
  cases d <;> rfl

theorem Direction.spelled_document (d : Direction) : d.document.Spelled := by
  cases d <;> exact Document.spelled_ofString _

theorem NullPlace.optionField?_document (p : Option NullPlace) :
    Document.optionField? ofDocument? (some (.ofOption document p)) = some p := by
  cases p with
  | none => rfl
  | some p => cases p <;> rfl

theorem NullPlace.spelled_document (p : NullPlace) : p.document.Spelled := by
  cases p <;> exact Document.spelled_ofString _

namespace SortColumn

theorem ofDocument?_document (c : SortColumn) : ofDocument? c.document = some c := by
  have hdirection := Direction.ofDocument?_document c.direction
  have hnulls := NullPlace.optionField?_document c.nulls
  simp [ofDocument?, document, Document.record, Document.record?, Document.members?,
    Document.field?, Document.ofString, Document.string?, Document.bool?, hdirection, hnulls]

theorem spelled_document (c : SortColumn) : c.document.Spelled := by
  refine Document.spelled_record fun m hm => ?_
  simp only [List.mem_cons, List.not_mem_nil, or_false] at hm
  rcases hm with rfl | rfl | rfl | rfl | rfl
  · exact Document.spelled_ofString _
  · exact c.direction.spelled_document
  · rw [Document.Spelled]; trivial
  · rw [Document.Spelled]; trivial
  · exact Document.spelled_ofOption NullPlace.spelled_document _

end SortColumn

/-! ## Orderings -/

namespace SortOrder

/-- The array of the columns. -/
def columnsDocument (o : SortOrder) : Document := .array (o.columns.map (·.document))

theorem document_eq (o : SortOrder) : o.document = .record [("columns", o.columnsDocument)] := rfl

theorem spelled_columnsDocument (o : SortOrder) : o.columnsDocument.Spelled := by
  refine Document.spelled_array fun d hd => ?_
  obtain ⟨c, -, rfl⟩ := List.mem_map.mp hd
  exact c.spelled_document

theorem spelled_document (o : SortOrder) : o.document.Spelled := by
  rw [document_eq]
  refine Document.spelled_record fun m hm => ?_
  obtain rfl := List.mem_singleton.mp hm
  exact o.spelled_columnsDocument

theorem ofDocument?_columnsDocument (o : SortOrder) :
    ofDocument? o.columnsDocument = some o :=
  ofDocument?_eq_some_iff.mpr (Document.list?_array fun c _ => c.ofDocument?_document)

/-- Nothing but an array is read as an ordering. -/
theorem ofDocument?_record (members : List (String × Document)) :
    ofDocument? (.record members) = none := rfl

/-- **Orderings do not come back from what they are written as.** The text of an ordering is an
object of one member, the array of its columns. The object is refused, whatever the columns are;
the array alone is read as the ordering. -/
theorem ofText?_document (o : SortOrder) :
    Document.ofText? o.document.text = some (.record [("columns", o.columnsDocument)]) ∧
    (Document.ofText? o.document.text).bind ofDocument? = none ∧
    (Document.ofText? o.columnsDocument.text).bind ofDocument? = some o := by
  have hobject := Document.ofText?_text o.spelled_document
  have harray := Document.ofText?_text o.spelled_columnsDocument
  refine ⟨hobject, ?_, ?_⟩
  · rw [hobject, Option.bind_some, document_eq, ofDocument?_record]
  · rw [harray, Option.bind_some, ofDocument?_columnsDocument]

end SortOrder

namespace Post

/-- Posts by slug. -/
def bySlug : SortOrder := ⟨[⟨"slug", .ascending, false, true, none⟩], by decide⟩

/-- The text of an ordering by slug is no text of an ordering. -/
theorem bySlug_not_read_back : SortOrder.ofColumns bySlug.columns = .ok bySlug ∧
    bySlug.document.text = "\x7b\"columns\":[\x7b\"name\":\"slug\",\"direction\":\"Asc\"," ++
      "\"nullable\":false,\"distinct\":true,\"nulls\":null\x7d]\x7d" ∧
    (Document.ofText? bySlug.document.text).bind SortOrder.ofDocument? ≠ some bySlug := by
  refine ⟨rfl, by decide, ?_⟩
  rw [Document.ofText?_text bySlug.spelled_document, Option.bind_some, SortOrder.document_eq,
    SortOrder.ofDocument?_record]
  exact nofun

end Post

end Keyset
