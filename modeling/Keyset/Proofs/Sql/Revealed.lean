import Keyset.Proofs.Condition.Alike
import Keyset.Proofs.Reader.Fitting
import Keyset.Proofs.Sql.Parameters
import Keyset.Proofs.Sql.Refine
import Keyset.Proofs.Sql.Shape

/-! # What the query for a page reveals

Conditions of one shape have expressions of one shape (`Condition.expr_alike`),
and nothing else in the query for a page depends on the position. So the text of
the query is the same for all positions of one shape. The parameters are those
of the condition, the values of the position, and behind them the limit
(`parameters_seek`). -/

namespace Keyset

open Sql

variable {V : Value → Value → Prop}

/-! ## Conditions -/

theorem Sql.Expr.column_alike (qualifier : Option String) (column : String) :
    Expr.Alike Eq V (.column qualifier column) (.column qualifier column) := by
  cases qualifier with
  | none => exact .column .none rfl
  | some q => exact .column (.some rfl) rfl

theorem Sql.Expr.join_alike {f : Expr → Expr → Expr} {unit : Expr} {es es' : List Expr}
    (hf : ∀ {a a' b b' : Expr}, a.Alike Eq V a' → b.Alike Eq V b' → (f a b).Alike Eq V (f a' b'))
    (hunit : unit.Alike Eq V unit) (h : List.Forall₂ (Expr.Alike Eq V) es es') :
    (join f unit es).Alike Eq V (join f unit es') := by
  cases h with
  | nil => exact hunit
  | cons he hrest =>
    exact List.rel_foldl (R := Expr.Alike Eq V) (fun _ _ ha _ _ hb => hf ha hb) he hrest

namespace Condition

variable (qualifier : Option String)

mutual

/-- Conditions of one shape have expressions of one shape. -/
theorem expr_alike : ∀ {p p' : Condition}, p.Alike V p' →
    (p.expr qualifier).Alike Eq V (p'.expr qualifier)
  | .never, _, .never => .truth false
  | .compare .., _, .compare column op hv =>
    .binary op.operator (Expr.column_alike qualifier column) (.bound hv)
  | .isNull .., _, .isNull column negated => .isNull negated (Expr.column_alike qualifier column)
  | .and _, _, .and h => Expr.join_alike (.binary .and) (.truth true) (exprs_alike h)
  | .or _, _, .or h => Expr.join_alike (.binary .or) (.truth false) (exprs_alike h)

theorem exprs_alike : ∀ {ps ps' : List Condition}, List.Forall₂ (Alike V) ps ps' →
    List.Forall₂ (Expr.Alike Eq V) (exprs qualifier ps) (exprs qualifier ps')
  | [], _, .nil => .nil
  | _ :: _, _, .cons hp hps => .cons (expr_alike hp) (exprs_alike hps)

end

end Condition

/-! ## Queries -/

namespace Sql

variable (d : Dialect) (table : Table) (o : SortOrder) (limit : UInt64)

theorem Select.seek_ofTable (condition : Option Condition) :
    (ofTable [.everything] table none).seek o condition limit =
      { columns := [.everything]
        source := some ⟨table, none⟩
        filter := condition.map (·.expr none)
        order := o.key.map (·.term none)
        limit := some (.bound (.uint limit)) } := by
  unfold Select.seek
  simp only [Select.foldl_orderedBy]
  cases condition <;> rfl

theorem TableReference.alike_refl (s : TableReference) : s.Alike Eq s := by
  have hrefl (name? : Option String) : Option.Rel Eq name? name? := by
    cases name? with
    | none => exact .none
    | some name => exact .some rfl
  exact ⟨hrefl _, rfl, hrefl _⟩

theorem term_alike (qualifier : Option String) (c : SortColumn) :
    SortTerm.Alike Eq V (c.term qualifier) (c.term qualifier) :=
  ⟨Expr.column_alike qualifier c.name, rfl, rfl⟩

/-- Only the condition and the limit carry values. -/
theorem Select.seek_alike {condition condition' : Option Condition}
    (h : Option.Rel (Condition.Alike V) condition condition')
    (hlimit : V (.uint limit) (.uint limit)) :
    Select.Alike Eq V ((ofTable [.everything] table none).seek o condition limit)
      ((ofTable [.everything] table none).seek o condition' limit) := by
  rw [seek_ofTable, seek_ofTable]
  refine ⟨.cons .everything .nil, .some (TableReference.alike_refl _), ?_, ?_, .some (.bound hlimit)⟩
  · cases h with
    | none => exact .none
    | some hp => exact .some (Condition.expr_alike none hp)
  · exact List.forall₂_map_left_iff.mpr (List.forall₂_map_right_iff.mpr
      (List.forall₂_same.mpr fun c _ => term_alike none c))

/-- The parameters of a page's query are those of the condition, and the limit behind them. -/
theorem parameters_seek (condition : Option Condition) :
    (((Select.ofTable [.everything] table none).seek o condition limit).rendered d).parameters =
      Piece.parameters (clause (fun p : Condition => (p.expr none).pieces d) condition) ++
        [.uint limit] := by
  have hterms : (o.key.map (·.term none)).flatMap (·.values d) = [] := by
    rw [List.flatMap_map, List.flatMap_eq_nil_iff]
    intro c _
    simp [SortTerm.values, SortColumn.term, Expr.values]
  rw [Select.rendered, Piece.rendered, Select.parameters_eq, Select.seek_ofTable, Select.values,
    hterms, parameters_clause]
  cases condition with
  | none => rfl
  | some p => simp [Expr.parameters_eq, Expr.values]

end Sql

/-! ## Pages -/

namespace Page

theorem select_of_lowerBound {p : Page} {condition : Option Condition} (table : Table)
    (h : p.lowerBound = .ok condition) : p.select table =
      .ok ((Select.ofTable [.everything] table none).seek p.order condition p.limit) := by
  rw [select, h]
  rfl

/-- **The query for a page reveals only the shape of the position.** For all positions that set the
same key columns, and null in the same ones, it is the same text. The parameters are, one by one,
values of one and the same column, and then the limit. None of them is null. -/
theorem select_reveals_shape (d : Dialect) (table : Table) (p : Page) {c c' : Cursor} {k k' : Nat}
    (hc : c.fit p.order = .ok k) (hc' : c'.fit p.order = .ok k')
    (h : Cursor.SameShape p.order c c') :
    ∃ s s', (p.after (some c)).select table = .ok s ∧ (p.after (some c')).select table = .ok s' ∧
      (s.rendered d).sql = (s'.rendered d).sql ∧
      (∃ vs vs', (s.rendered d).parameters = vs ++ [.uint p.limit] ∧
        (s'.rendered d).parameters = vs' ++ [.uint p.limit] ∧
        List.Forall₂ (Cursor.Beside p.order c c') vs vs') ∧
      .null ∉ (s.rendered d).parameters ∧ .null ∉ (s'.rendered d).parameters := by
  obtain ⟨condition, hp⟩ := Cursor.exists_lowerBound hc
  obtain ⟨condition', hp'⟩ := Cursor.exists_lowerBound hc'
  have hs : (p.after (some c)).select table =
      .ok ((Select.ofTable [.everything] table none).seek p.order condition p.limit) :=
    select_of_lowerBound table (lowerBound_after.trans hp)
  have hs' : (p.after (some c')).select table =
      .ok ((Select.ofTable [.everything] table none).seek p.order condition' p.limit) :=
    select_of_lowerBound table (lowerBound_after.trans hp')
  have hvalues : List.Forall₂ (Cursor.Beside p.order c c')
      (Piece.parameters (clause (fun p : Condition => (p.expr none).pieces d) condition))
      (Piece.parameters (clause (fun p : Condition => (p.expr none).pieces d) condition')) :=
    Piece.parameters_alike (alike_clause (h.lowerBound_alike hc hc' hp hp' fun _ _ => id) fun hq =>
      (Condition.expr_alike none hq).pieces (quotes_eq d))
  -- for the text any two values will do, the limits too
  have htext := h.lowerBound_alike hc hc' hp hp' (V := fun _ _ => True) fun _ _ _ => trivial
  obtain ⟨hnull, hnull'⟩ := Cursor.Beside.null_notMem hvalues
  have hlimit : Value.null ∉ [Value.uint p.limit] := by simp
  have hparameters := parameters_seek d table p.order p.limit condition
  have hparameters' := parameters_seek d table p.order p.limit condition'
  refine ⟨_, _, hs, hs', ?_, ⟨_, _, hparameters, hparameters', hvalues⟩, ?_, ?_⟩
  · exact Piece.sql_eq ((Select.seek_alike table p.order p.limit htext trivial).pieces
      (quotes_eq d)) 0
  · rw [hparameters, List.mem_append]
    exact not_or.mpr ⟨hnull, hlimit⟩
  · rw [hparameters', List.mem_append]
    exact not_or.mpr ⟨hnull', hlimit⟩

end Page

/-- Another position among the posts without a score. -/
def Post.sixth : Cursor := .ofPairs [("id", .string "' OR TRUE --"), ("score", .null)]

/-- The queries behind two posts without a score are one text. Nothing is passed with it for the
scores, which are null, and the one parameter that tells the posts apart is not part of the text. -/
theorem Post.second_like_sixth :
    second.fit ranking = .ok 2 ∧ sixth.fit ranking = .ok 2 ∧
      Cursor.SameShape ranking second sixth ∧
      ∃ s s', ((Page.first ranking).after (some second)).select ⟨none, "posts"⟩ = .ok s ∧
        ((Page.first ranking).after (some sixth)).select ⟨none, "posts"⟩ = .ok s' ∧
        (s.rendered .mysql).sql = (s'.rendered .mysql).sql ∧
        (s.rendered .mysql).parameters = [.int 2, .uint 21] ∧
        (s'.rendered .mysql).parameters = [.string "' OR TRUE --", .uint 21] ∧
        Cursor.Beside ranking second sixth (.int 2) (.string "' OR TRUE --") := by
  have hsecond : second.fit ranking = .ok 2 := by decide
  have hsixth : sixth.fit ranking = .ok 2 := by decide
  have hshape : Cursor.SameShape ranking second sixth := ⟨by decide, by decide⟩
  obtain ⟨s, s', hs, hs', htext, ⟨vs, vs', hvs, hvs', hbeside⟩, -⟩ :=
    Page.select_reveals_shape .mysql ⟨none, "posts"⟩ (Page.first ranking) hsecond hsixth hshape
  have hparameters : (s.rendered .mysql).parameters = [.int 2, .uint 21] := by
    cases hs
    decide
  have hparameters' : (s'.rendered .mysql).parameters =
      [.string "' OR TRUE --", .uint 21] := by
    cases hs'
    decide
  -- without the limits, one value of each list is left
  have hone : vs = [.int 2] :=
    (List.append_inj' (hvs.symm.trans (hparameters : _ = [.int 2] ++ [.uint 21])) rfl).1
  have hone' : vs' = [.string "' OR TRUE --"] := (List.append_inj' (hvs'.symm.trans
    (hparameters' : _ = [.string "' OR TRUE --"] ++ [.uint 21])) rfl).1
  rw [hone, hone', List.forall₂_cons] at hbeside
  exact ⟨hsecond, hsixth, hshape, s, s', hs, hs', htext, hparameters, hparameters', hbeside.1⟩

end Keyset
