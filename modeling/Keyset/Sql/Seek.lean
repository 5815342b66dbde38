import Keyset.Condition.Seek
import Keyset.Sql.Select

/-!
# Queries for pages

A condition becomes an expression, and an ordering, a condition and a limit become clauses of a
query. Nulls are placed for nullable columns only.
-/
namespace Keyset
open Sql

def Comparison.operator : Comparison → Operator
  | .equal => .equal
  | .greater => .greater
  | .less => .less

namespace Condition

mutual

/-- The condition on the columns of the table that `qualifier` names, if it does. -/
def expr (qualifier : Option String) : Condition → Expr
  | .never => .truth false
  | .compare column op value => .binary (.column qualifier column) op.operator (.bound value)
  | .isNull column negated => .isNull (.column qualifier column) negated
  | .and parts => .join .and (.truth true) (exprs qualifier parts)
  | .or parts => .join .or (.truth false) (exprs qualifier parts)

def exprs (qualifier : Option String) : List Condition → List Expr
  | [] => []
  | p :: ps => p.expr qualifier :: exprs qualifier ps

end

end Condition

namespace SortColumn

def term (qualifier : Option String) (c : SortColumn) : SortTerm :=
  ⟨.column qualifier c.name, some c.direction, if c.nullable then some c.nullPlace else none⟩

end SortColumn

namespace Sql.Select

/-- The clauses of a page: rows of the query that satisfy the condition, by key columns, up to the
limit. -/
def seek (s : Select) (o : SortOrder) (condition : Option Condition) (limit : UInt64) : Select :=
  let restricted := match condition with
    | some c => s.restricted (c.expr s.qualifier)
    | none => s
  ((o.key.map (·.term s.qualifier)).foldl orderedBy restricted).withLimit (.bound (.uint limit))

end Sql.Select

/-- The query that fetches a page of a table, and one row more. -/
def Page.select (p : Page) (table : Table) : Except CursorError Select := do
  let condition ← p.lowerBound
  return (Select.ofTable [.everything] table none).seek p.order condition p.limit

end Keyset
