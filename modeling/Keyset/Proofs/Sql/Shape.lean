import Keyset.Proofs.Sql.Pieces
import Mathlib.Data.List.Forall2
import Mathlib.Data.Option.Defs

/-! # The shape of a query

Two queries have one shape if they differ in names and bound values only. Their
pieces then correspond one by one (`Select.Alike.pieces`), and so do their
parameters (`Piece.parameters_alike`). If the names are the same, so is the text:
bound values leave no trace in it (`Piece.sql_eq`). -/

namespace Keyset.Sql

/-! ## Trees of one shape -/

section
variable (N : String → String → Prop) (V : Value → Value → Prop)

/-- Expressions of one shape, with names and bound values that are related. -/
inductive Expr.Alike : Expr → Expr → Prop
  | column {q q' : Option String} {name name' : String} (hq : Option.Rel N q q')
      (hname : N name name') : Alike (.column q name) (.column q' name')
  | bound {v v' : Value} (hv : V v v') : Alike (.bound v) (.bound v')
  | truth (b : Bool) : Alike (.truth b) (.truth b)
  | binary {left left' right right' : Expr} (op : Operator) (hleft : Alike left left')
      (hright : Alike right right') : Alike (.binary left op right) (.binary left' op right')
  | isNull {e e' : Expr} (negated : Bool) (he : Alike e e') :
      Alike (.isNull e negated) (.isNull e' negated)
  | everything : Alike .everything .everything

structure TableReference.Alike (s s' : TableReference) : Prop where
  schema : Option.Rel N s.table.schema s'.table.schema
  name : N s.table.name s'.table.name
  label : Option.Rel N s.label s'.label

structure SortTerm.Alike (t t' : SortTerm) : Prop where
  expr : t.expr.Alike N V t'.expr
  direction : t.direction = t'.direction
  nulls : t.nulls = t'.nulls

structure Select.Alike (s s' : Select) : Prop where
  columns : List.Forall₂ (Expr.Alike N V) s.columns s'.columns
  source : Option.Rel (TableReference.Alike N) s.source s'.source
  filter : Option.Rel (Expr.Alike N V) s.filter s'.filter
  order : List.Forall₂ (SortTerm.Alike N V) s.order s'.order
  limit : Option.Rel (Expr.Alike N V) s.limit s'.limit

end

/-- The same but for names. -/
def Expr.Renames : Expr → Expr → Prop := Alike (fun _ _ => True) Eq

/-- The same but for names. -/
def Select.Renames : Select → Select → Prop := Alike (fun _ _ => True) Eq

/-! ## Pieces of one shape -/

/-- Texts that are related, or bound values that are. -/
inductive Piece.Alike (T : String → String → Prop) (V : Value → Value → Prop) : Piece → Piece → Prop
  | text {s s' : String} (h : T s s') : Alike T V (.text s) (.text s')
  | bound {v v' : Value} (h : V v v') : Alike T V (.bound v) (.bound v')

/-- Names that are related are quoted as texts that are, and text without a mark is related to
itself. -/
structure Quotes (d : Dialect) (N T : String → String → Prop) : Prop where
  quote {name name' : String} : N name name' → T (d.quote name) (d.quote name')
  qualified {q q' name name' : String} : N q q' → N name name' →
    T (Sql.qualified d (some q) name) (Sql.qualified d (some q') name')
  plain {s : String} : d.quoteMark ∉ s.toList → T s s

variable {d : Dialect} {N T : String → String → Prop} {V : Value → Value → Prop}

theorem Quotes.name (h : Quotes d N T) {q q' : Option String} {name name' : String}
    (hq : Option.Rel N q q') (hname : N name name') :
    Piece.Alike T V (.text (Sql.qualified d q name)) (.text (Sql.qualified d q' name')) := by
  cases hq with
  | none => exact .text (h.quote hname)
  | some hq => exact .text (h.qualified hq hname)

theorem Quotes.text (h : Quotes d N T) (s : String)
    (hs : '"' ∉ s.toList ∧ '\x60' ∉ s.toList := by decide) :
    Piece.Alike T V (.text s) (.text s) := by
  refine .text (h.plain ?_)
  cases d with
  | postgres => exact hs.1
  | mysql => exact hs.2

theorem Expr.Alike.pieces (h : Quotes d N T) {e e' : Expr} (he : e.Alike N V e') :
    List.Forall₂ (Piece.Alike T V) (e.pieces d) (e'.pieces d) := by
  induction he with
  | column hq hname => exact .cons (h.name hq hname) .nil
  | bound hv => exact .cons (.bound hv) .nil
  | truth b => cases b <;> exact .cons (h.text _) .nil
  | binary op _ _ ihl ihr =>
    have hop : Piece.Alike T V (.text op.text) (.text op.text) := by cases op <;> exact h.text _
    have hleft := List.rel_append (List.Forall₂.cons (h.text "(") ihl) (.cons hop ihr)
    exact List.rel_append hleft (.cons (h.text ")") .nil)
  | isNull negated _ ih =>
    cases negated <;> exact List.rel_append (.cons (h.text "(") ih) (.cons (h.text _) .nil)
  | everything => exact .cons (h.text "*") .nil

theorem alike_commaSeparated (h : Quotes d N T) {items items' : List (List Piece)}
    (hi : List.Forall₂ (List.Forall₂ (Piece.Alike T V)) items items') :
    List.Forall₂ (Piece.Alike T V) (commaSeparated items) (commaSeparated items') := by
  cases hi with
  | nil => exact .nil
  | cons hfirst hrest =>
    rw [commaSeparated_cons, commaSeparated_cons]
    exact List.rel_append hfirst (List.rel_flatMap hrest fun _ _ hx => .cons (h.text ", ") hx)

theorem alike_clause {α : Type} {R : α → α → Prop} {f : α → List Piece} {a a' : Option α}
    (ha : Option.Rel R a a')
    (hf : ∀ {x x'}, R x x' → List.Forall₂ (Piece.Alike T V) (f x) (f x')) :
    List.Forall₂ (Piece.Alike T V) (clause f a) (clause f a') := by
  cases ha with
  | none => exact .nil
  | some hx => exact hf hx

theorem TableReference.Alike.pieces (h : Quotes d N T) {s s' : TableReference}
    (hs : s.Alike N s') : List.Forall₂ (Piece.Alike T V) (s.pieces d) (s'.pieces d) := by
  have hlabel := alike_clause (f := labelPieces d) (T := T) (V := V) hs.label fun hx =>
    .cons (h.text " AS ") (.cons (.text (h.quote hx)) .nil)
  rw [TableReference.pieces_eq, TableReference.pieces_eq]
  exact .cons (h.text "FROM ") (.cons (h.name hs.schema hs.name) hlabel)

theorem SortTerm.Alike.pieces (h : Quotes d N T) {t t' : SortTerm} (ht : t.Alike N V t') :
    List.Forall₂ (Piece.Alike T V) (t.pieces d) (t'.pieces d) := by
  obtain ⟨e, direction, nulls⟩ := t
  obtain ⟨e', _, _⟩ := t'
  obtain ⟨he, rfl, rfl⟩ := ht
  have hexpr := he.pieces h
  have hdirection : List.Forall₂ (Piece.Alike T V) (clause directionPieces direction)
      (clause directionPieces direction) := by
    rcases direction with _ | _ | _
    · exact .nil
    · exact .cons (h.text " ASC") .nil
    · exact .cons (h.text " DESC") .nil
  have hnulls : List.Forall₂ (Piece.Alike T V) (clause nullsPieces nulls)
      (clause nullsPieces nulls) := by
    rcases nulls with _ | _ | _
    · exact .nil
    · exact .cons (h.text " NULLS FIRST") .nil
    · exact .cons (h.text " NULLS LAST") .nil
  have hkey : List.Forall₂ (Piece.Alike T V) (clause (nullKeyPieces d e) nulls)
      (clause (nullKeyPieces d e') nulls) := by
    have hopen := List.Forall₂.cons (h.text "(") hexpr
    rcases nulls with _ | _ | _
    · exact .nil
    · exact List.rel_append hopen (.cons (h.text " IS NULL) DESC, ") .nil)
    · exact List.rel_append hopen (.cons (h.text " IS NULL) ASC, ") .nil)
  rw [SortTerm.pieces_eq, SortTerm.pieces_eq]
  -- the place of null is said behind the expression or by a key before it
  split
  · exact List.rel_append hexpr (List.rel_append hdirection hnulls)
  · exact List.rel_append hkey (List.rel_append hexpr hdirection)

/-- Queries of one shape are laid out alike. -/
theorem Select.Alike.pieces (h : Quotes d N T) {s s' : Select} (hs : s.Alike N V s') :
    List.Forall₂ (Piece.Alike T V) (s.pieces d) (s'.pieces d) := by
  have hcolumns := alike_commaSeparated (V := V) h
    (List.rel_map (fun _ _ he => he.pieces h) hs.columns)
  have hsource := alike_clause (T := T) (V := V) (f := fun source => .text " " :: source.pieces d)
    hs.source fun hx => .cons (h.text " ") (hx.pieces h)
  have hfilter := alike_clause (T := T) (V := V) (f := fun e => .text " WHERE " :: e.pieces d)
    hs.filter fun hx => .cons (h.text " WHERE ") (hx.pieces h)
  have hlimit := alike_clause (T := T) (V := V) (f := fun e => .text " LIMIT " :: e.pieces d)
    hs.limit fun hx => .cons (h.text " LIMIT ") (hx.pieces h)
  have hterms : Option.Rel (List.Forall₂ (SortTerm.Alike N V)) s.terms? s'.terms? := by
    have horder := hs.order
    rw [terms?, terms?]
    -- sort terms that correspond are there together or not at all
    cases ho : s.order <;> cases ho' : s'.order <;> rw [ho, ho'] at horder <;> cases horder
    · exact .none
    · rename_i hfirst hrest
      exact .some (.cons hfirst hrest)
  have horder := alike_clause (f := orderPieces d) hterms fun hx => .cons (h.text " ORDER BY ")
    (alike_commaSeparated (V := V) h (List.rel_map (fun _ _ ht => ht.pieces h) hx))
  rw [Select.pieces_eq, Select.pieces_eq]
  exact .cons (h.text "SELECT ") (List.rel_append hcolumns (List.rel_append hsource
    (List.rel_append hfilter (List.rel_append horder hlimit))))

/-! ## Text and parameters -/

/-- Names that are the same are quoted the same. -/
theorem quotes_eq (d : Dialect) : Quotes d Eq Eq where
  quote h := h ▸ rfl
  qualified hq hname := hq ▸ hname ▸ rfl
  plain _ := rfl

namespace Piece

theorem sql_eq {ps qs : List Piece} (h : List.Forall₂ (Alike Eq V) ps qs) (index : Nat) :
    sql d index ps = sql d index qs := by
  induction h generalizing index with
  | nil => rfl
  | cons hp _ ih =>
    cases hp with
    | text hs => rw [sql, sql, hs, ih]
    | bound _ => rw [sql, sql, ih]

theorem parameters_alike {ps qs : List Piece} (h : List.Forall₂ (Alike T V) ps qs) :
    List.Forall₂ V (parameters ps) (parameters qs) := by
  induction h with
  | nil => exact .nil
  | cons hp _ ih =>
    cases hp with
    | text _ => exact ih
    | bound hv => exact .cons hv ih

end Piece

end Keyset.Sql
