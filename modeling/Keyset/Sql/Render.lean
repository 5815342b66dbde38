import Keyset.Sql.Dialect
import Keyset.Sql.Select

/-!
# SQL text

A query is first laid out as pieces, plain text and bound values in the order in which they
appear. Numbering the placeholders and collecting the parameters are then two walks over the same
pieces, so the text never depends on a bound value.
-/
namespace Keyset.Sql

inductive Piece where
  | text (s : String)
  | bound (v : Value)
  deriving DecidableEq

structure Rendered where
  sql : String
  parameters : List Value
  deriving DecidableEq

namespace Piece

/-- The text of the pieces where `index` parameters come before them. -/
def sql (d : Dialect) : Nat → List Piece → String
  | _, [] => ""
  | index, .text s :: ps => s ++ sql d index ps
  | index, .bound _ :: ps => d.placeholder index ++ sql d (index + 1) ps

def parameters (ps : List Piece) : List Value :=
  ps.filterMap fun
    | .text _ => none
    | .bound v => some v

def rendered (d : Dialect) (ps : List Piece) : Rendered := ⟨sql d 0 ps, parameters ps⟩

end Piece

/-- Pieces of several items with `, ` between them. -/
def commaSeparated (items : List (List Piece)) : List Piece :=
  [Piece.text ", "].intercalate items

def Operator.text : Operator → String
  | .equal => " = "
  | .less => " < "
  | .greater => " > "
  | .and => " AND "
  | .or => " OR "

/-- A name behind an optional qualifier. -/
def qualified (d : Dialect) (qualifier : Option String) (name : String) : String :=
  match qualifier with
  | some q => d.quote q ++ "." ++ d.quote name
  | none => d.quote name

/-- Every operation is in parentheses. -/
def Expr.pieces (d : Dialect) : Expr → List Piece
  | .column qualifier name => [.text (qualified d qualifier name)]
  | .bound v => [.bound v]
  | .truth b => [.text (if b then "TRUE" else "FALSE")]
  | .binary left op right =>
    .text "(" :: left.pieces d ++ .text op.text :: right.pieces d ++ [.text ")"]
  | .isNull e negated =>
    .text "(" :: e.pieces d ++ [.text (if negated then " IS NOT NULL)" else " IS NULL)")]
  | .everything => [.text "*"]

def TableReference.pieces (d : Dialect) (s : TableReference) : List Piece :=
  .text "FROM " :: .text (qualified d s.table.schema s.table.name) ::
    (match s.label with
      | some label => [.text " AS ", .text (d.quote label)]
      | none => [])

/-- A dialect that cannot place nulls first sorts by whether the key is null: false comes before
true. -/
def SortTerm.pieces (d : Dialect) (t : SortTerm) : List Piece :=
  (match t.nulls with
    | some place =>
      if d.placesNulls then []
      else .text "(" :: t.expr.pieces d ++
        [.text (match place with
          | .first => " IS NULL) DESC, "
          | .last => " IS NULL) ASC, ")]
    | none => []) ++
  t.expr.pieces d ++
  (match t.direction with
    | some .ascending => [.text " ASC"]
    | some .descending => [.text " DESC"]
    | none => []) ++
  (match t.nulls with
    | some place =>
      if d.placesNulls then
        [.text (match place with
          | .first => " NULLS FIRST"
          | .last => " NULLS LAST")]
      else []
    | none => [])

def Select.pieces (d : Dialect) (s : Select) : List Piece :=
  .text "SELECT " :: commaSeparated (s.columns.map (·.pieces d)) ++
  (match s.source with
    | some source => .text " " :: source.pieces d
    | none => []) ++
  (match s.filter with
    | some e => .text " WHERE " :: e.pieces d
    | none => []) ++
  (if s.order.isEmpty then []
    else .text " ORDER BY " :: commaSeparated (s.order.map (·.pieces d))) ++
  (match s.limit with
    | some e => .text " LIMIT " :: e.pieces d
    | none => [])

def Expr.rendered (d : Dialect) (e : Expr) : Rendered := Piece.rendered d (e.pieces d)

def Select.rendered (d : Dialect) (s : Select) : Rendered := Piece.rendered d (s.pieces d)

end Keyset.Sql
