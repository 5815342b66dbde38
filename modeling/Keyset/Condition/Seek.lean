import Keyset.Condition.Basic
import Keyset.Page.Basic

/-!
# Seeking past a position

For key columns `c₁ … cₙ` and a cursor that sets the first `k` of them to `v₁ … vₖ`, the rows
behind the cursor are those with `c₁` past `v₁`, or `c₁` at `v₁` and `c₂` past `v₂`, and so on.
"Past" follows the direction of the column and the place of null.
-/
namespace Keyset

/-- How a value compares that comes behind another in this direction. -/
def Direction.behind : Direction → Comparison
  | .ascending => .greater
  | .descending => .less

namespace SortColumn

/-- Rows whose value in the column comes behind the bound. -/
def past (c : SortColumn) (bound : Value) : Condition :=
  if bound.isNull then
    match c.nullPlace with
    | .first => .isNull c.name true
    | .last => .never
  else
    let beyond := Condition.compare c.name c.direction.behind bound
    if c.nullable ∧ c.nullPlace = .last then .any [beyond, .isNull c.name false] else beyond

/-- Rows whose value in the column is the bound. -/
def tied (c : SortColumn) (bound : Value) : Condition :=
  if bound.isNull then .isNull c.name false else .compare c.name .equal bound

end SortColumn

namespace Cursor

/-- One disjunct for each column, where `equal` pins the columns before. -/
def disjuncts (c : Cursor) (equal : List Condition) : List SortColumn → List Condition
  | [] => []
  | column :: columns =>
    match c.find? column.name with
    | none => []
    | some bound =>
      .all (equal ++ [column.past bound]) :: c.disjuncts (equal ++ [column.tied bound]) columns

/-- The condition for rows behind the cursor. There is none if the cursor sets nothing. -/
def lowerBound (c : Cursor) (o : SortOrder) : Except CursorError (Option Condition) := do
  let n ← c.fit o
  if n = 0 then return none
  return some (.any (c.disjuncts [] (o.key.take n)))

end Cursor

/-- The condition for rows behind the position of the page. -/
def Page.lowerBound (p : Page) : Except CursorError (Option Condition) :=
  match p.position with
  | some c => c.lowerBound p.order
  | none => .ok none

end Keyset
