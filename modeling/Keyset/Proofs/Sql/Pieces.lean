import Keyset.Sql.Render

/-! # How queries are laid out

A query is a row of clauses, each there or not, and a clause is a word with
expressions, sort terms or a table behind it. The pieces of sort terms, tables
and queries are put in this form (`SortTerm.pieces_eq`,
`TableReference.pieces_eq`, `Select.pieces_eq`). -/

namespace Keyset.Sql

/-! ## Text and parameters of pieces -/

namespace Piece

theorem parameters_append (ps qs : List Piece) :
    parameters (ps ++ qs) = parameters ps ++ parameters qs :=
  List.filterMap_append

@[simp]
theorem parameters_nil : parameters [] = [] := rfl

@[simp]
theorem parameters_text (s : String) (ps : List Piece) :
    parameters (.text s :: ps) = parameters ps := rfl

@[simp]
theorem parameters_bound (v : Value) (ps : List Piece) :
    parameters (.bound v :: ps) = v :: parameters ps := rfl

end Piece

/-! ## Clauses -/

/-- The pieces of something that may not be there. -/
def clause {α : Type} (pieces : α → List Piece) : Option α → List Piece
  | some a => pieces a
  | none => []

/-- The first item, and the others with a comma before each. -/
theorem commaSeparated_cons (x : List Piece) (xs : List (List Piece)) :
    commaSeparated (x :: xs) = x ++ xs.flatMap (.text ", " :: ·) := by
  induction xs generalizing x with
  | nil => simp [commaSeparated, List.intercalate]
  | cons y ys ih =>
    have hrest := ih y
    simp only [commaSeparated, List.intercalate, List.intersperse] at hrest ⊢
    simp [hrest]

def directionPieces (direction : Direction) : List Piece :=
  [.text (match direction with
    | .ascending => " ASC"
    | .descending => " DESC")]

/-- The place of nulls, in a dialect that has words for it. -/
def nullsPieces (place : NullPlace) : List Piece :=
  [.text (match place with
    | .first => " NULLS FIRST"
    | .last => " NULLS LAST")]

/-- The sort key that stands for the place of nulls in other dialects. -/
def nullKeyPieces (d : Dialect) (e : Expr) (place : NullPlace) : List Piece :=
  .text "(" :: e.pieces d ++
    [.text (match place with
      | .first => " IS NULL) DESC, "
      | .last => " IS NULL) ASC, ")]

theorem SortTerm.pieces_eq (d : Dialect) (t : SortTerm) : t.pieces d =
    if d.placesNulls then
      t.expr.pieces d ++ (clause directionPieces t.direction ++ clause nullsPieces t.nulls)
    else
      clause (nullKeyPieces d t.expr) t.nulls ++
        (t.expr.pieces d ++ clause directionPieces t.direction) := by
  obtain ⟨e, direction, nulls⟩ := t
  cases hd : d.placesNulls <;> rcases direction with _ | _ | _ <;> rcases nulls with _ | _ | _ <;>
    simp [SortTerm.pieces, clause, directionPieces, nullsPieces, nullKeyPieces, hd]

/-- The term has its own words in the dialect: nulls are placed by words, or not at all. -/
def SortTerm.Native (d : Dialect) (t : SortTerm) : Prop := d.placesNulls = true ∨ t.nulls = none

def SortTerm.nativePieces (d : Dialect) (t : SortTerm) : List Piece :=
  t.expr.pieces d ++ (clause directionPieces t.direction ++ clause nullsPieces t.nulls)

theorem SortTerm.pieces_of_native {d : Dialect} {t : SortTerm} (h : t.Native d) :
    t.pieces d = t.nativePieces d := by
  rw [pieces_eq]
  rcases h with hd | hnulls
  · rw [if_pos hd, nativePieces]
  · rw [nativePieces, hnulls]
    split <;> simp [clause]

def labelPieces (d : Dialect) (label : String) : List Piece :=
  [.text " AS ", .text (d.quote label)]

theorem TableReference.pieces_eq (d : Dialect) (s : TableReference) : s.pieces d =
    .text "FROM " :: ([.text (qualified d s.table.schema s.table.name)] ++
      clause (labelPieces d) s.label) := by
  obtain ⟨table, label⟩ := s
  cases label <;> rfl

def orderPieces (d : Dialect) (terms : List SortTerm) : List Piece :=
  .text " ORDER BY " :: commaSeparated (terms.map (·.pieces d))

def nativeOrderPieces (d : Dialect) (terms : List SortTerm) : List Piece :=
  .text " ORDER BY " :: commaSeparated (terms.map (·.nativePieces d))

/-- The sort terms, if there are any. -/
def Select.terms? (s : Select) : Option (List SortTerm) :=
  if s.order = [] then none else some s.order

theorem Select.pieces_eq (d : Dialect) (s : Select) : s.pieces d =
    .text "SELECT " :: (commaSeparated (s.columns.map (·.pieces d)) ++
      (clause (fun source => .text " " :: source.pieces d) s.source ++
        (clause (fun e => .text " WHERE " :: e.pieces d) s.filter ++
          (clause (orderPieces d) s.terms? ++
            clause (fun e => .text " LIMIT " :: e.pieces d) s.limit)))) := by
  obtain ⟨columns, source, filter, order, limit⟩ := s
  cases source <;> cases filter <;> cases order <;> cases limit <;>
    simp [Select.pieces, clause, orderPieces, terms?]

/-- The pieces of a query whose sort terms are native. -/
def Select.nativePieces (d : Dialect) (s : Select) : List Piece :=
  .text "SELECT " :: (commaSeparated (s.columns.map (·.pieces d)) ++
    (clause (fun source => .text " " :: source.pieces d) s.source ++
      (clause (fun e => .text " WHERE " :: e.pieces d) s.filter ++
        (clause (nativeOrderPieces d) s.terms? ++
          clause (fun e => .text " LIMIT " :: e.pieces d) s.limit))))

theorem Select.pieces_of_native {d : Dialect} {s : Select} (h : ∀ t ∈ s.order, t.Native d) :
    s.pieces d = s.nativePieces d := by
  have hterms : s.order.map (·.pieces d) = s.order.map (·.nativePieces d) :=
    List.map_congr_left fun t ht => SortTerm.pieces_of_native (h t ht)
  have hclause : clause (orderPieces d) s.terms? = clause (nativeOrderPieces d) s.terms? := by
    rw [terms?]
    split
    · rfl
    · simp only [clause, orderPieces, nativeOrderPieces, hterms]
  rw [pieces_eq, nativePieces, hclause]

end Keyset.Sql
