import Keyset.Order.Column
import Keyset.Sql.Expr

/-!
# Queries

A query is built up clause by clause: a filter replaces the one before, while a restriction and a
sort term add to what is there.
-/
namespace Keyset.Sql

structure Table where
  schema : Option String
  name : String
  deriving DecidableEq

/-- A table, possibly under another name. -/
structure TableReference where
  table : Table
  label : Option String
  deriving DecidableEq

structure SortTerm where
  expr : Expr
  direction : Option Direction
  nulls : Option NullPlace
  deriving DecidableEq

structure Select where
  columns : List Expr
  source : Option TableReference
  filter : Option Expr
  order : List SortTerm
  limit : Option Expr
  deriving DecidableEq

namespace Select

/-- Columns of a table, all rows in no order. -/
def ofTable (columns : List Expr) (table : Table) (label : Option String) : Select :=
  ⟨columns, some ⟨table, label⟩, none, [], none⟩

def withFilter (s : Select) (e : Expr) : Select := { s with filter := some e }

/-- Only rows that also satisfy `e`. -/
def restricted (s : Select) (e : Expr) : Select :=
  { s with filter := some (match s.filter with
    | some f => f.and e
    | none => e) }

def orderedBy (s : Select) (t : SortTerm) : Select := { s with order := s.order ++ [t] }

def withLimit (s : Select) (e : Expr) : Select := { s with limit := some e }

/-- The name that qualifies columns: the table's other name, if it has one. -/
def qualifier (s : Select) : Option String := s.source.bind (·.label)

end Select

end Keyset.Sql
