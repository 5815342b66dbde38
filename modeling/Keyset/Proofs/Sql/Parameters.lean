import Keyset.Proofs.Sql.Pieces

/-! # The parameters of a query

The parameters are the values of the tree in the order in which it is laid out
(`Select.parameters_eq`): columns, filter, sort terms, limit, each expression
from left to right. Only a sort key can be there twice. -/

namespace Keyset.Sql

/-! ## Values of a tree -/

/-- The values of an expression from left to right. -/
def Expr.values : Expr → List Value
  | .bound v => [v]
  | .binary left _ right => left.values ++ right.values
  | .isNull e _ => e.values
  | .column .. | .truth _ | .everything => []

/-- The values of a sort term. A dialect that has no words for the place of null states the key
twice. -/
def SortTerm.values (d : Dialect) (t : SortTerm) : List Value :=
  if d.placesNulls = false ∧ t.nulls.isSome then t.expr.values ++ t.expr.values else t.expr.values

/-- The values of a query, clause by clause. -/
def Select.values (d : Dialect) (s : Select) : List Value :=
  s.columns.flatMap (·.values) ++ s.filter.elim [] (·.values) ++ s.order.flatMap (·.values d) ++
    s.limit.elim [] (·.values)

open Piece

variable {d : Dialect}

/-! ## Parameters -/

theorem parameters_commaSeparated (items : List (List Piece)) :
    parameters (commaSeparated items) = items.flatMap parameters := by
  cases items with
  | nil => rfl
  | cons ps items =>
    have hrest : parameters (items.flatMap (.text ", " :: ·)) = items.flatMap parameters :=
      List.filterMap_flatMap
    rw [commaSeparated_cons, parameters_append, hrest, List.flatMap_cons]

theorem parameters_clause {α : Type} (f : α → List Piece) (a? : Option α) :
    parameters (clause f a?) = a?.elim [] fun a => parameters (f a) := by
  cases a? <;> rfl

theorem Expr.parameters_eq (e : Expr) : parameters (e.pieces d) = e.values := by
  induction e with
  | binary left op right ihl ihr => simp [pieces, parameters_append, ihl, ihr, values]
  | isNull e negated ih => simp [pieces, parameters_append, ih, values]
  | _ => rfl

theorem SortTerm.parameters_eq (t : SortTerm) : parameters (t.pieces d) = t.values d := by
  have hexpr := t.expr.parameters_eq (d := d)
  obtain ⟨e, direction, nulls⟩ := t
  rw [pieces_eq, values]
  cases d.placesNulls <;> rcases direction with _ | _ | _ <;> rcases nulls with _ | _ | _ <;>
    simp [clause, directionPieces, nullsPieces, nullKeyPieces, parameters_append, hexpr]

theorem Select.parameters_eq (s : Select) : parameters (s.pieces d) = s.values d := by
  have hcolumns : parameters (commaSeparated (s.columns.map (·.pieces d))) =
      s.columns.flatMap (·.values) := by
    rw [parameters_commaSeparated, List.flatMap_map]
    exact congrArg s.columns.flatMap (funext Expr.parameters_eq)
  have hterms (terms : List SortTerm) : parameters (orderPieces d terms) =
      terms.flatMap (·.values d) := by
    rw [orderPieces, parameters_text, parameters_commaSeparated, List.flatMap_map]
    exact congrArg terms.flatMap (funext SortTerm.parameters_eq)
  have hexpr (word : String) (e? : Option Expr) :
      parameters (clause (fun e => .text word :: e.pieces d) e?) = e?.elim [] (·.values) := by
    rw [parameters_clause]
    exact congrArg (e?.elim []) (funext Expr.parameters_eq)
  have hsource :
      parameters (clause (fun source => .text " " :: source.pieces d) s.source) = [] := by
    rcases s.source with _ | ⟨table, _ | label⟩ <;> rfl
  have horder : parameters (clause (orderPieces d) s.terms?) = s.order.flatMap (·.values d) := by
    rw [parameters_clause, funext hterms, terms?]
    split
    · rename_i hnil
      rw [hnil]
      rfl
    · rfl
  rw [pieces_eq, parameters_text, parameters_append, parameters_append, parameters_append,
    parameters_append, hcolumns, hsource, hexpr, horder, hexpr, List.nil_append, values,
    List.append_assoc, List.append_assoc]

end Keyset.Sql
