import Keyset.Text.Folded

/-!
# SQL dialects

How a dialect quotes names, numbers placeholders and places nulls. A quote inside a name is
doubled, so no name can end its own quotation.
-/
namespace Keyset.Sql
open Text

inductive Dialect where
  | postgres
  | mysql
  deriving DecidableEq, Repr

namespace Dialect

def name : Dialect → String
  | .postgres => "PostgreSQL"
  | .mysql => "MySQL"

/-- A dialect by one of its names, in any case. -/
def ofName? (s : String) : Option Dialect :=
  match fold s with
  | "postgres" | "postgresql" | "pg" => some .postgres
  | "mysql" => some .mysql
  | _ => none

def quoteMark : Dialect → Char
  | .postgres => '"'
  | .mysql => '\x60'

def quote (d : Dialect) (name : String) : String :=
  let q := d.quoteMark
  String.ofList (q :: name.toList.flatMap (fun c => if c = q then [q, q] else [c]) ++ [q])

/-- The placeholder of a parameter, counted from 0. -/
def placeholder (d : Dialect) (index : Nat) : String :=
  match d with
  | .postgres => s!"${index + 1}"
  | .mysql => "?"

/-- Whether `NULLS FIRST` and `NULLS LAST` are understood. -/
def placesNulls : Dialect → Bool
  | .postgres => true
  | .mysql => false

end Dialect

end Keyset.Sql
