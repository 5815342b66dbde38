import Keyset.Dictionary
import Keyset.Text.Folded
import Keyset.Value.Text

/-!
# Rows

A row is a list of named fields of some entity. Fields are looked up without regard to letter
case, and the first one of a name counts. A missing field, and one without a value, reads as null.
-/
namespace Keyset
open Text

/-- A field without a value differs from one that holds null only in its written form. -/
structure Field where
  name : String
  value : Option Value
  deriving DecidableEq

structure Row where
  entity : String
  fields : List Field
  deriving DecidableEq

namespace Row

/-- A row from names and values. -/
def ofPairs (entity : String) (pairs : List (String × Value)) : Row :=
  ⟨entity, pairs.map fun (name, value) => ⟨name, some value⟩⟩

def field? (row : Row) (name : String) : Option Field :=
  row.fields.find? fun f => sameFolded f.name name

def value (row : Row) (name : String) : Value :=
  ((row.field? name).bind (·.value)).getD .null

end Row

open Json

namespace Field

def plain (f : Field) : Document := .ofOption Value.plain f.value

def document (f : Field) : Document :=
  .record [("name", .ofString f.name), ("value", .ofOption Value.document f.value)]

def ofDocument? (d : Document) : Option Field := do
  match ← d.record? ["name", "value"] with
  | [name, value] =>
    return ⟨← Document.field? Document.string? name,
      ← Document.optionField? Value.ofDocument? value⟩
  | _ => none

end Field

namespace Row

/-- One JSON object with sorted keys; among fields of one name the last one is shown. -/
def plain (row : Row) : Document :=
  .record (Dictionary.ofList (row.fields.map fun f => (f.name, f.plain))).entries

def document (row : Row) : Document :=
  .record [("entity", .ofString row.entity),
    ("field_values", .array (row.fields.map Field.document))]

def ofDocument? (d : Document) : Option Row := do
  match ← d.record? ["entity", "field_values"] with
  | [entity, fields] =>
    return ⟨← Document.field? Document.string? entity,
      ← Document.field? (Document.list? Field.ofDocument?) fields⟩
  | _ => none

end Row

end Keyset
