import Keyset.Value.Text
import Keyset.Proofs.Calendar.Reading
import Keyset.Proofs.Json.Read
import Keyset.Proofs.Number.Written
import Keyset.Proofs.Value.Uuid

/-! # Values come back from their tagged documents

The tagged document keeps the kind, and the text of every kind is read as the
value it was written for (`ofDocument?_document`). Only NaN and the infinities
have no text: theirs is a well-formed document (`spelled_document`) that holds
no value. -/

namespace Keyset.Value
open Json

/-- Not a NaN and not an infinity. -/
def isFinite : Value → Bool
  | .float f => f.isFinite
  | _ => true

theorem spelled_ofChars (cs : List Char) : (Document.ofChars cs).Spelled := by
  rw [Document.ofChars, Document.Spelled]
  trivial

theorem spelled_floatDocument (f : Binary64) : (floatDocument f).Spelled := by
  unfold floatDocument
  split
  · rename_i h
    rw [Document.Spelled]
    exact jsonLayout.isNumeral_write h
  · rw [Document.Spelled]
    trivial

theorem spelled_document (v : Value) : v.document.Spelled := by
  have tagged {kind : String} {content : Document} (h : content.Spelled) :
      (Document.record [(kind, content)]).Spelled :=
    Document.spelled_record fun m hm => by rwa [List.mem_singleton.mp hm]
  cases v with
  | int n => exact tagged (Document.spelled_ofInt _)
  | uint n => exact tagged (Document.spelled_ofNat _)
  | float f => exact tagged (spelled_floatDocument f)
  | string s => exact tagged (Document.spelled_ofString s)
  | boolean b => exact tagged (by rw [Document.Spelled]; trivial)
  | uuid u => exact tagged (spelled_ofChars _)
  | date d => exact tagged (spelled_ofChars _)
  | timestamp t => exact tagged (spelled_ofChars _)
  | null => exact Document.spelled_ofString "Null"

theorem string?_ofChars (cs : List Char) :
    (Document.ofChars cs).string?.map String.toList = some cs := by
  rw [Document.ofChars, Document.string?, Option.map_some, String.toList_ofList]

theorem variant?_tagged (kind : String) (content : Document) :
    (Document.record [(kind, content)]).variant? = some (kind, some content) := rfl

theorem ofDocument?_document {v : Value} (h : v.isFinite = true) :
    ofDocument? v.document = some v := by
  cases v with
  | int n =>
    rw [document, ofDocument?, variant?_tagged]
    show (Document.ofInt n.toInt).int64?.map int = _
    rw [Document.int64?_ofInt, Option.map_some]
  | uint n =>
    rw [document, ofDocument?, variant?_tagged]
    show (Document.ofNat n.toNat).uint64?.map uint = _
    rw [Document.uint64?_ofNat, Option.map_some]
  | float f =>
    have hf : f.isFinite = true := h
    rw [document, ofDocument?, variant?_tagged]
    show (floatDocument f).binary64?.map float = _
    rw [floatDocument, if_pos hf, Document.binary64?, Binary64.read?_write jsonLayout hf,
      Option.map_some]
  | string s =>
    rw [document, ofDocument?, variant?_tagged]
    show (Document.ofString s).string?.map string = _
    rw [Document.ofString, Document.string?, Option.map_some]
  | boolean b =>
    rw [document, ofDocument?, variant?_tagged]
    show (Document.bool b).bool?.map boolean = _
    rw [Document.bool?, Option.map_some]
  | uuid u =>
    have hread := u.read?_text
    rw [document, ofDocument?, variant?_tagged]
    generalize u.text = cs at hread
    show (((Document.ofChars cs).string?.map String.toList).bind Uuid.read?).map uuid = _
    rw [string?_ofChars, Option.bind_some, hread, Option.map_some]
  | date d =>
    have hread := Calendar.relaxedDate?_text d
    rw [document, ofDocument?, variant?_tagged]
    generalize d.text = cs at hread
    show (((Document.ofChars cs).string?.map String.toList).bind
      Calendar.relaxedDate?).map date = _
    rw [string?_ofChars, Option.bind_some, hread, Option.map_some]
  | timestamp t =>
    have hread := Calendar.relaxedTimestamp?_text t
    rw [document, ofDocument?, variant?_tagged]
    generalize t.text 'T' "Z" = cs at hread
    show (((Document.ofChars cs).string?.map String.toList).bind
      Calendar.relaxedTimestamp?).map timestamp = _
    rw [string?_ofChars, Option.bind_some, hread, Option.map_some]
  | null => rfl

/-- The document of a NaN or an infinity says `null` where its reader wants a number. -/
theorem ofDocument?_of_not_finite {v : Value} (h : v.isFinite = false) :
    ofDocument? v.document = none := by
  cases v with
  | float f =>
    have hf : f.isFinite = false := h
    rw [document, ofDocument?, variant?_tagged]
    show (floatDocument f).binary64?.map float = none
    rw [floatDocument, if_neg (by rw [hf]; exact Bool.false_ne_true)]
    rfl
  | int _ | uint _ | string _ | boolean _ | uuid _ | date _ | timestamp _ | null => cases h

end Keyset.Value
