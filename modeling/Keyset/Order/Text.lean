import Keyset.Order.Basic
import Keyset.Text.Pieces

/-!
# Orderings as text

An ordering is written as columns between commas, a column as its name and flags between colons:
`created_at:desc,id:asc:distinct`. Reading skips blank columns, ignores blanks around each part
and the case of flags, takes flags in any order and lets the last one of a kind win.
-/
namespace Keyset
open Text

namespace SortColumn

def flags (c : SortColumn) : List String :=
  (match c.direction with
    | .ascending => ["asc"]
    | .descending => ["desc"]) ++
  (if c.nullable then ["nullable"] else []) ++
  (if c.distinct then ["distinct"] else []) ++
  (match c.nulls with
    | some .first => ["nulls-first"]
    | some .last => ["nulls-last"]
    | none => [])

def text (c : SortColumn) : String := ":".intercalate (c.name :: c.flags)

/-- The column with a flag set, if there is such a flag. -/
def withFlag? (c : SortColumn) : String → Option SortColumn
  | "asc" => some { c with direction := .ascending }
  | "desc" => some { c with direction := .descending }
  | "nullable" => some { c with nullable := true }
  | "distinct" => some { c with distinct := true }
  | "nulls-first" => some { c with nulls := some .first }
  | "nulls-last" => some { c with nulls := some .last }
  | _ => none

def withFlags (c : SortColumn) : List String → Except OrderError SortColumn
  | [] => .ok c
  | flag :: flags =>
    match c.withFlag? (fold (strip flag)) with
    | some c => c.withFlags flags
    | none => .error (.unknownFlag (fold (strip flag)) c.name)

/-- A column such as `id:desc:distinct`. -/
def ofText (s : String) : Except OrderError SortColumn :=
  match split ':' s with
  | [] => .error (.missingName s)
  | name :: flags =>
    if (strip name).isEmpty then .error (.missingName s) else (named name).withFlags flags

end SortColumn

namespace SortOrder

def text (o : SortOrder) : String := ",".intercalate (o.columns.map (·.text))

def ofText (s : String) : Except OrderError SortOrder := do
  let parts := (split ',' s).filter fun part => !(strip part).isEmpty
  ofColumns (← parts.mapM SortColumn.ofText)

end SortOrder

end Keyset
