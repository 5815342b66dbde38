import Keyset.Source.Request
import Keyset.Sql.Render
import Keyset.Sql.Seek

/-!
# Tables behind a database

A request becomes one query, with the table's own filter in force, and some executor runs it.
-/
namespace Keyset
open Sql

structure SqlTable where
  table : Table
  label : Option String
  /-- What every row has to satisfy, whatever a request asks for. -/
  filter : Option Expr
  dialect : Dialect

namespace SqlTable

def query (t : SqlTable) (r : Request) : Select :=
  let all := Select.ofTable [.everything] t.table t.label
  let visible := match t.filter with
    | some e => all.withFilter e
    | none => all
  visible.seek r.order r.condition r.limit

def rendered (t : SqlTable) (r : Request) : Rendered := (t.query r).rendered t.dialect

/-- The rows that an executor returns, or the text of its error. -/
def fetch (t : SqlTable) (executor : Rendered → Except String (List Row)) (r : Request) : Answer :=
  (executor (t.rendered r)).mapError .refused

end SqlTable

end Keyset
