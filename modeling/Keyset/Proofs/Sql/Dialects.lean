import Keyset.Proofs.Sql.Readable
import Keyset.Proofs.Sql.Refine

/-! # Sorting in each dialect

A dialect without words for the place of nulls gets two sort terms for one, the
first of them by whether the expression is null. Those are what a reader of the
text finds, and no other terms have that text (`reads_iff`). The two dialects
also differ in where null goes if the query does not say. All the same, rows
have one order in both wherever the place of null is stated or nothing is null
(`order_spelled`, `order_in_dialects`). -/

namespace Keyset

open Sql SortOrder

namespace Sql

/-! ## What a dialect reads -/

/-- Where null goes in a dialect if the query does not say: PostgreSQL takes it for greater than all
values, MySQL for less. -/
def Dialect.nullPlace : Dialect → Direction → NullPlace
  | .postgres, .ascending | .mysql, .descending => .last
  | .postgres, .descending | .mysql, .ascending => .first

/-- Sorting by whether a value is null puts null in this place. -/
def nullKeyDirection : NullPlace → Direction
  | .first => .descending
  | .last => .ascending

/-- The sort terms that a dialect has for one. -/
def SortTerm.spelled (d : Dialect) (t : SortTerm) : List SortTerm :=
  match t.nulls with
  | some place =>
    if d.placesNulls then [t]
    else [⟨.isNull t.expr false, some (nullKeyDirection place), none⟩, { t with nulls := none }]
  | none => [t]

/-- In its text in the dialect, the query has these sort terms, each in words of the dialect. -/
def Dialect.Reads (d : Dialect) (s : Select) (terms : List SortTerm) : Prop :=
  ({ s with order := terms }).rendered d = s.rendered d ∧ ∀ t ∈ terms, t.Native d

theorem SortTerm.native_of_spelled {d : Dialect} {t u : SortTerm} (h : u ∈ t.spelled d) :
    u.Native d := by
  obtain ⟨e, direction, nulls⟩ := t
  cases hd : d.placesNulls with
  | true => exact Or.inl hd
  | false =>
    cases nulls with
    | none =>
      rw [List.mem_singleton.mp h]
      exact Or.inr rfl
    | some place =>
      simp only [spelled, hd, Bool.false_eq_true, if_false, List.mem_cons, List.not_mem_nil,
        or_false] at h
      rcases h with rfl | rfl <;> exact Or.inr rfl

/-! ## Pieces with one text -/

namespace Piece

/-- Pieces that make up the same text, whatever comes before and behind. -/
def SameText (d : Dialect) (ps qs : List Piece) : Prop :=
  ∀ index r, before d index ps r = before d index qs r

namespace SameText

variable {d : Dialect} {ps ps' qs qs' : List Piece}

theorem refl (ps : List Piece) : SameText d ps ps := fun _ _ => rfl

theorem rendered_eq (h : SameText d ps qs) : rendered d ps = rendered d qs := by
  have hbefore := h 0 ⟨[], []⟩
  rw [before_rendered, before_rendered, Rest.mk.injEq] at hbefore
  rw [rendered, rendered, String.toList_inj.mp hbefore.1, hbefore.2]

theorem append (h : SameText d ps ps') (hq : SameText d qs qs') :
    SameText d (ps ++ qs) (ps' ++ qs') := by
  have hparameters : parameters ps = parameters ps' := congrArg Rendered.parameters h.rendered_eq
  intro index r
  rw [before_append, before_append, hparameters, hq, h]

theorem text_cons (s : String) : SameText d (.text s :: ps) (.text s :: qs) ↔ SameText d ps qs :=
  forall₂_congr fun _ _ => Rest.push_inj

theorem flatMap {α : Type} {f g : α → List Piece} (h : ∀ a, SameText d (f a) (g a)) (as : List α) :
    SameText d (as.flatMap f) (as.flatMap g) := by
  induction as with
  | nil => exact refl []
  | cons a as ih =>
    rw [List.flatMap_cons, List.flatMap_cons]
    exact (h a).append ih

end SameText

end Piece

open Piece

variable {d : Dialect}

theorem SortTerm.sameText_spelled (t : SortTerm) :
    SameText d (.text ", " :: t.pieces d) ((t.spelled d).flatMap (.text ", " :: ·.pieces d)) := by
  obtain ⟨e, direction, nulls⟩ := t
  cases nulls with
  | none => simpa [spelled] using SameText.refl _
  | some place =>
    cases hd : d.placesNulls with
    | true => simpa [spelled, hd] using SameText.refl _
    | false =>
      intro index r
      cases place <;>
        simp [spelled, hd, SortTerm.pieces, Expr.pieces, nullKeyDirection, before,
          before_append, Rest.push]

/-- Behind a comma, items with commas between them are items with a comma before each. -/
theorem comma_commaSeparated {items : List (List Piece)} (h : items ≠ []) :
    .text ", " :: commaSeparated items = items.flatMap (.text ", " :: ·) := by
  obtain ⟨x, xs, rfl⟩ := List.exists_cons_of_ne_nil h
  rw [commaSeparated_cons, List.flatMap_cons, List.cons_append]

theorem SortTerm.spelled_ne_nil (t : SortTerm) : t.spelled d ≠ [] := by
  unfold spelled
  split
  · split <;> exact List.cons_ne_nil _ _
  · exact List.cons_ne_nil _ _

theorem flatMap_spelled_eq_nil_iff {ts : List SortTerm} :
    ts.flatMap (SortTerm.spelled d) = [] ↔ ts = [] := by
  rw [List.flatMap_eq_nil_iff]
  refine ⟨fun h => List.eq_nil_iff_forall_not_mem.mpr fun t ht => t.spelled_ne_nil (h t ht), ?_⟩
  rintro rfl t ht
  cases ht

theorem sameText_terms (ts : List SortTerm) : SameText d (commaSeparated (ts.map (·.pieces d)))
    (commaSeparated ((ts.flatMap (SortTerm.spelled d)).map (·.pieces d))) := by
  by_cases hts : ts = []
  · rw [hts]
    exact SameText.refl _
  · -- with a comma before each term, the text is put together term by term
    have hspelled : ts.flatMap (SortTerm.spelled d) ≠ [] := mt flatMap_spelled_eq_nil_iff.mp hts
    rw [← SameText.text_cons ", ", comma_commaSeparated (by simpa using hts),
      comma_commaSeparated (by simpa using hspelled), List.flatMap_map, List.flatMap_map,
      List.flatMap_assoc]
    exact SameText.flatMap SortTerm.sameText_spelled ts

/-- A query has the same text with its sort terms spelled out. -/
theorem Select.rendered_spelled (s : Select) :
    ({ s with order := s.order.flatMap (SortTerm.spelled d) }).rendered d = s.rendered d := by
  have horder : SameText d (clause (orderPieces d) s.terms?) (clause (orderPieces d)
      (terms? { s with order := s.order.flatMap (SortTerm.spelled d) })) := by
    simp only [terms?, flatMap_spelled_eq_nil_iff]
    split
    · exact SameText.refl _
    · exact (SameText.text_cons " ORDER BY ").mpr (sameText_terms s.order)
  refine (SameText.rendered_eq ?_).symm
  rw [pieces_eq, pieces_eq, SameText.text_cons]
  exact (SameText.refl _).append ((SameText.refl _).append ((SameText.refl _).append
    (horder.append (SameText.refl _))))

/-- The sort terms that a dialect reads are those of the query, spelled out. -/
theorem reads_iff {s : Select} {terms : List SortTerm} :
    d.Reads s terms ↔ terms = s.order.flatMap (SortTerm.spelled d) := by
  have hspelled : ∀ u ∈ s.order.flatMap (SortTerm.spelled d), u.Native d := by
    intro u hu
    obtain ⟨t, _, ht⟩ := List.mem_flatMap.mp hu
    exact SortTerm.native_of_spelled ht
  constructor
  · rintro ⟨htext, hnative⟩
    rw [← s.rendered_spelled, Select.rendered, Select.rendered, Select.pieces_of_native hnative,
      Select.pieces_of_native hspelled] at htext
    exact congrArg Select.order (Select.readBack_native.rendered_eq_iff.mp htext)
  · rintro rfl
    exact ⟨s.rendered_spelled, hspelled⟩

theorem Select.order_seek (s : Select) (o : SortOrder) (condition : Option Condition)
    (limit : UInt64) :
    (s.seek o condition limit).order = s.order ++ o.key.map (·.term s.qualifier) := by
  unfold seek
  simp only [foldl_orderedBy]
  cases condition <;> rfl

/-! ## The order of rows -/

/-- The database, with the dialect's place of null where a query does not say. -/
def Database.under (db : Database) (d : Dialect) : Database := { db with nullPlace := d.nullPlace }

namespace Database

variable {db : Database} {table : String} {row a b : Row}

theorem value_under (e : Expr) : (db.under d).value table row e = db.value table row e := by
  have happly (op : Operator) (a b : Value) : (db.under d).apply op a b = db.apply op a b := by
    cases op <;> rfl
  induction e with
  | binary left op right ihl ihr => rw [value, value, ihl, ihr, happly]
  | isNull e negated ih => rw [value, value, ih]
  | column qualifier name => cases qualifier <;> rfl
  | _ => rfl

theorem order_append (ts us : List SortTerm) : db.order table (ts ++ us) a b =
    (db.order table ts a b).then (db.order table us a b) := by
  induction ts with
  | nil => rfl
  | cons t ts ih => rw [List.cons_append, order, order, ih, Ordering.then_assoc]

/-- Sorting by whether a value is null comes to placing null. -/
theorem arrange_isNull_then (direction : Direction) (place p q : NullPlace) (v w : Value) :
    (arrange (nullKeyDirection place) p (.boolean v.isNull) (.boolean w.isNull)).then
      (arrange direction q v w) = arrange direction place v w := by
  by_cases hnull : v.isNull = true ∨ w.isNull = true
  · have hunknown : v.compare? w = none := if_pos hnull
    unfold arrange
    rw [hunknown]
    rcases hnull with hnull | hnull <;> rw [hnull]
    · cases w.isNull <;> cases place <;> cases q <;> rfl
    · cases v.isNull <;> cases place <;> cases q <;> rfl
  · rw [not_or, Bool.not_eq_true, Bool.not_eq_true] at hnull
    rw [hnull.1, hnull.2, arrange_eq_of_not_null direction q place hnull.1 hnull.2]
    cases place <;> rfl

theorem order_spelled_term (t : SortTerm) :
    db.order table (t.spelled d) a b = db.orderBy table t a b := by
  unfold SortTerm.spelled
  split
  case h_2 => rw [order, order, Ordering.then_eq]
  case h_1 place hnulls =>
    split
    · rw [order, order, Ordering.then_eq]
    · rw [order, order, order, Ordering.then_eq]
      simp only [orderBy, value, hnulls, Option.getD_some, Option.getD_none, Bool.bne_false]
      exact arrange_isNull_then _ place _ _ _ _

/-- Sort terms order rows as they do when spelled out. -/
theorem order_spelled (ts : List SortTerm) :
    db.order table (ts.flatMap (SortTerm.spelled d)) a b = db.order table ts a b := by
  induction ts with
  | nil => rfl
  | cons t ts ih => rw [List.flatMap_cons, order_append, order_spelled_term, ih, order]

/-- The dialect does not matter where the place of null is stated. -/
theorem order_under {ts : List SortTerm} (h : ∀ t ∈ ts, t.nulls ≠ none) :
    (db.under d).order table ts a b = db.order table ts a b := by
  induction ts with
  | nil => rfl
  | cons t ts ih =>
    obtain ⟨place, hplace⟩ := Option.ne_none_iff_exists'.mp (h t List.mem_cons_self)
    rw [order, order, ih fun u hu => h u (List.mem_cons_of_mem t hu), orderBy, orderBy, hplace,
      value_under, value_under]
    rfl

/-- **Each dialect sorts as the ordering does.** What a dialect reads in the text of a query are its
sort terms, each as it stands or, for MySQL, as a key for the place of null and one for the value.
If the place of null is stated in all of them, they order rows the same way in both dialects. The
terms that an ordering adds to a query order rows that hold a value wherever they must, in both
dialects, as the ordering does; that decides where the terms before them leave rows equal. -/
theorem order_in_dialects (db : Database) (d : Dialect) (s : Select) (table : String) (a b : Row) :
    (∀ terms, d.Reads s terms ↔ terms = s.order.flatMap (SortTerm.spelled d)) ∧
    (∀ terms, d.Reads s terms → (∀ t ∈ s.order, t.nulls ≠ none) →
      (db.under d).order table terms a b = db.order table s.order a b) ∧
    ∀ (o : SortOrder) (condition : Option Condition) (limit : UInt64) (earlier terms),
      d.Reads s earlier → d.Reads (s.seek o condition limit) terms → o.Complete a → o.Complete b →
      (db.under d).order (s.qualifier.getD table) terms a b =
        ((db.under d).order (s.qualifier.getD table) earlier a b).then (o.compareRows a b) := by
  refine ⟨fun terms => reads_iff, ?_, ?_⟩
  · intro terms hread hplaced
    rw [reads_iff.mp hread, order_spelled, order_under hplaced]
  · intro o condition limit earlier terms hearlier hread ha hb
    rw [reads_iff.mp hearlier, reads_iff.mp hread, order_spelled, order_spelled,
      Select.order_seek, order_append, order_key eq_getD_of_mem ha hb]

end Database

end Sql

/-- In MySQL, posts without a score come first by a key of their own, and then by their ids. -/
theorem Post.ranking_in_mysql :
    let s := Select.ofTable [.everything] ⟨none, "posts"⟩ (some "p")
    let score := Expr.column (some "p") "score"
    let terms : List SortTerm := [⟨.isNull score false, some .descending, none⟩,
      ⟨score, some .descending, none⟩, ⟨.column (some "p") "id", some .ascending, none⟩]
    let placed := s.orderedBy ⟨score, some .ascending, some .last⟩
    Dialect.mysql.Reads (s.seek ranking none 20) terms ∧
    (database.under .mysql).order "p" terms (scored 2 none) (scored 4 (some 7)) = .lt ∧
    (database.under .mysql).order "p" (placed.order.flatMap (SortTerm.spelled .mysql))
      (scored 2 none) (scored 4 (some 7)) = .gt := by
  intro s score terms placed
  obtain ⟨hreads, -, hseek⟩ := Database.order_in_dialects database .mysql s "posts"
    (scored 2 none) (scored 4 (some 7))
  obtain ⟨hall, -, -⟩ := Database.order_in_dialects database .mysql (s.seek ranking none 20) "posts"
    (scored 2 none) (scored 4 (some 7))
  obtain ⟨hplaced, hsame, -⟩ := Database.order_in_dialects database .mysql placed "p"
    (scored 2 none) (scored 4 (some 7))
  have hterms : Dialect.mysql.Reads (s.seek ranking none 20) terms := (hall terms).mpr rfl
  refine ⟨hterms, ?_, ?_⟩
  · have hearlier : Dialect.mysql.Reads s [] := (hreads []).mpr rfl
    exact (hseek ranking none 20 [] terms hearlier hterms (by decide) (by decide)).trans (by decide)
  · exact (hsame _ ((hplaced _).mpr rfl) (by decide)).trans (by decide)

end Keyset
