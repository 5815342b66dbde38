import Keyset.Value.Basic

/-!
# SQL expressions

The expressions that queries need. Values never become part of the SQL text; they are bound.
-/
namespace Keyset.Sql

inductive Operator where
  | equal
  | less
  | greater
  | and
  | or
  deriving DecidableEq, Repr

inductive Expr where
  /-- A column, possibly of a named table. -/
  | column (qualifier : Option String) (name : String)
  | bound (v : Value)
  | truth (b : Bool)
  | binary (left : Expr) (op : Operator) (right : Expr)
  | isNull (e : Expr) (negated : Bool)
  /-- All columns, `*`. -/
  | everything
  deriving DecidableEq

namespace Expr

def and (left right : Expr) : Expr := .binary left .and right

def or (left right : Expr) : Expr := .binary left .or right

/-- Expressions joined from the left, or `unit` if there are none. -/
def join (f : Expr → Expr → Expr) (unit : Expr) : List Expr → Expr
  | [] => unit
  | e :: es => es.foldl f e

end Expr

end Keyset.Sql
