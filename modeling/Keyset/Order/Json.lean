import Keyset.Json.Read
import Keyset.Order.Basic

/-!
# Orderings in JSON

An ordering is written as an object with the field `columns`, and read from the bare array of its
columns.
-/
namespace Keyset
open Json

namespace Direction

def document : Direction → Document
  | .ascending => .ofString "Asc"
  | .descending => .ofString "Desc"

def ofDocument? (d : Document) : Option Direction := do
  let (name, content) ← d.variant?
  if !Document.isUnit content then none
  else match name with
    | "Asc" => some .ascending
    | "Desc" => some .descending
    | _ => none

end Direction

namespace NullPlace

def document : NullPlace → Document
  | .first => .ofString "First"
  | .last => .ofString "Last"

def ofDocument? (d : Document) : Option NullPlace := do
  let (name, content) ← d.variant?
  if !Document.isUnit content then none
  else match name with
    | "First" => some .first
    | "Last" => some .last
    | _ => none

end NullPlace

namespace SortColumn

def document (c : SortColumn) : Document :=
  .record [("name", .ofString c.name), ("direction", c.direction.document),
    ("nullable", .bool c.nullable), ("distinct", .bool c.distinct),
    ("nulls", .ofOption NullPlace.document c.nulls)]

def ofDocument? (d : Document) : Option SortColumn := do
  match ← d.record? ["name", "direction", "nullable", "distinct", "nulls"] with
  | [name, direction, nullable, distinct, nulls] =>
    return ⟨← Document.field? Document.string? name,
      ← Document.field? Direction.ofDocument? direction,
      ← Document.field? Document.bool? nullable,
      ← Document.field? Document.bool? distinct,
      ← Document.optionField? NullPlace.ofDocument? nulls⟩
  | _ => none

end SortColumn

namespace SortOrder

def document (o : SortOrder) : Document :=
  .record [("columns", .array (o.columns.map (·.document)))]

def ofDocument? (d : Document) : Option SortOrder := do
  match ofColumns (← d.list? SortColumn.ofDocument?) with
  | .ok o => some o
  | .error _ => none

end SortOrder

end Keyset
