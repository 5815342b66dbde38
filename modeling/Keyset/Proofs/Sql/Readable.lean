import Keyset.Proofs.Sql.Quotation
import Keyset.Proofs.Sql.ReadBack

/-! # Queries can be read back

A name ends at the first mark in its quotation that is not doubled, an
expression tells by its first character of what kind it is, and a query by the
words of its clauses which of them it has. So text and parameters tell the
expression in each dialect, and the query if the dialect has words for its sort
terms (`Select.readBack_native`); and no name changes what stands outside of
quotations (`rendered_injective`). -/

namespace Keyset.Sql

open Piece

variable {d : Dialect}

/-- What can stand behind an expression, if anything does. -/
def ends : List String := [" ", ",", ")"]

def Ends : List Char → Prop := Follows ends

theorem Ends.head?_ne {t : List Char} (h : Ends t) {c : Char} (hc : c ∉ [' ', ',', ')']) :
    t.head? ≠ some c := by
  intro he
  rcases h with rfl | ⟨w, hw, u, rfl⟩
  · cases he
  · simp only [ends, List.mem_cons, List.not_mem_nil, or_false] at hw
    rcases hw with rfl | rfl | rfl <;> cases he <;> exact hc (by decide)

/-! ## Names -/

theorem doubled_cancel {q : Char} {cs ds t t' : List Char} (ht : t.head? ≠ some q)
    (ht' : t'.head? ≠ some q)
    (h : cs.flatMap (fun c => if c = q then [q, q] else [c]) ++ q :: t =
      ds.flatMap (fun c => if c = q then [q, q] else [c]) ++ q :: t') : cs = ds ∧ t = t' := by
  induction cs generalizing ds with
  | nil =>
    cases ds with
    | nil => simpa using h
    | cons e ds =>
      by_cases he : e = q
      · -- the mark that ends the empty name would be doubled
        simp only [List.flatMap_nil, List.nil_append, List.flatMap_cons, he, if_true,
          List.cons_append, List.cons.injEq, true_and] at h
        rw [h] at ht
        exact absurd rfl ht
      · simp [he, Ne.symm he] at h
  | cons c cs ih =>
    cases ds with
    | nil =>
      by_cases hc : c = q
      · simp only [List.flatMap_nil, List.nil_append, List.flatMap_cons, hc, if_true,
          List.cons_append, List.cons.injEq, true_and] at h
        rw [← h] at ht'
        exact absurd rfl ht'
      · simp [hc] at h
    | cons e ds =>
      by_cases hc : c = q <;> by_cases he : e = q
      · have hrest : cs = ds ∧ t = t' := ih (by simpa [hc, he] using h)
        simpa [hc, he] using hrest
      · simp [hc, he, Ne.symm he] at h
      · simp [hc, he] at h
      · simp only [List.flatMap_cons, hc, he, if_false, List.cons_append, List.nil_append,
          List.cons.injEq] at h
        have hrest := ih h.2
        simpa [h.1] using hrest

/-- A name ends at the first mark that is not doubled. -/
theorem readBack_quote : ReadBack d (fun name => [.text (d.quote name)])
    (fun t => t.head? ≠ some d.quoteMark) := by
  intro a b index r r' hr hr' he
  simp only [before, Rest.push, Dialect.quote, String.toList_ofList, List.cons_append,
    List.append_assoc, List.nil_append, Rest.mk.injEq, List.cons.injEq, true_and] at he
  obtain ⟨hname, htext⟩ := doubled_cancel hr hr' he.1
  exact ⟨String.toList_inj.mp hname, Rest.ext htext he.2⟩

theorem before_qualified (q name : String) (index : Nat) (r : Rest) :
    before d index [.text (qualified d (some q) name)] r =
      before d index [.text (d.quote q)] ((before d index [.text (d.quote name)] r).push ['.']) := by
  simp [before, Rest.push, qualified]

theorem readBack_qualified : ReadBack d
    (fun x : Option String × String => [.text (qualified d x.1 x.2)]) Ends := by
  rintro ⟨q, name⟩ ⟨q', name'⟩ index r r' hr hr' he
  have hmark : r.text.head? ≠ some d.quoteMark := hr.head?_ne (by cases d <;> decide)
  have hmark' : r'.text.head? ≠ some d.quoteMark := hr'.head?_ne (by cases d <;> decide)
  have hpoint (r : Rest) : (r.push ['.']).text.head? ≠ some d.quoteMark := by
    cases d <;> simp [Dialect.quoteMark, Rest.push]
  -- a name is a qualifier exactly if a point stands behind it
  cases q <;> cases q' <;> simp only [before_qualified] at he
  case none.none =>
    obtain ⟨rfl, hrest⟩ := readBack_quote hmark hmark' he
    exact ⟨rfl, hrest⟩
  case none.some q' =>
    obtain ⟨-, hrest⟩ := readBack_quote hmark (hpoint _) he
    exact absurd (by rw [hrest]; rfl) (hr.head?_ne (c := '.') (by decide))
  case some.none q =>
    obtain ⟨-, hrest⟩ := readBack_quote (hpoint _) hmark' he
    exact absurd (by rw [← hrest]; rfl) (hr'.head?_ne (c := '.') (by decide))
  case some.some q q' =>
    obtain ⟨rfl, hnext⟩ := readBack_quote (hpoint _) (hpoint _) he
    obtain ⟨rfl, hrest⟩ := readBack_quote hmark hmark' (Rest.push_inj.mp hnext)
    exact ⟨rfl, hrest⟩

/-! ## Expressions -/

/-- How an expression begins. -/
inductive Opening where
  | name
  | parameter
  | truth (b : Bool)
  | parenthesis
  | star

def Opening.char (d : Dialect) : Opening → Char
  | .name => d.quoteMark
  | .parameter => match d with
    | .postgres => '$'
    | .mysql => '?'
  | .truth b => if b then 'T' else 'F'
  | .parenthesis => '('
  | .star => '*'

theorem Opening.char_inj {o o' : Opening} (h : o.char d = o'.char d) : o = o' := by
  cases d <;> rcases o with _ | _ | (_ | _) | _ | _ <;>
    rcases o' with _ | _ | (_ | _) | _ | _ <;> first | rfl | cases h

namespace Expr

def opening : Expr → Opening
  | .column .. => .name
  | .bound _ => .parameter
  | .truth b => .truth b
  | .binary .. | .isNull .. => .parenthesis
  | .everything => .star

theorem before_binary (left : Expr) (op : Operator) (right : Expr) (index : Nat) (r : Rest) :
    before d index ((binary left op right).pieces d) r =
      Rest.push ['('] (before d index (left.pieces d) (Rest.push op.text.toList
        (before d (index + (parameters (left.pieces d)).length) (right.pieces d) (r.push [')'])))) := by
  simp only [pieces, before, List.cons_append, before_append, List.append_assoc]
  rfl

theorem before_isNull (e : Expr) (negated : Bool) (index : Nat) (r : Rest) :
    before d index ((isNull e negated).pieces d) r =
      Rest.push ['('] (before d index (e.pieces d)
        (r.push (if negated then " IS NOT NULL)" else " IS NULL)").toList)) := by
  simp only [pieces, before, List.cons_append, before_append]
  rfl

theorem head?_before (e : Expr) (index : Nat) (r : Rest) :
    (before d index (e.pieces d) r).text.head? = some (e.opening.char d) := by
  cases e with
  | column q name =>
    cases q <;> simp [pieces, before, qualified, Dialect.quote, opening, Opening.char, Rest.push]
  | bound v =>
    cases d <;> simp [pieces, before, Dialect.placeholder, opening, Opening.char, Rest.push, toString]
  | truth b => cases b <;> simp [pieces, before, opening, Opening.char, Rest.push]
  | binary left op right => simp [before_binary, opening, Opening.char, Rest.push]
  | isNull e negated => simp [before_isNull, opening, Opening.char, Rest.push]
  | everything => simp [pieces, before, opening, Opening.char, Rest.push]

theorem opening_eq {e e' : Expr} {index : Nat} {r r' : Rest}
    (he : before d index (e.pieces d) r = before d index (e'.pieces d) r') :
    e.opening = e'.opening := by
  have hhead := head?_before (d := d) e index r
  rw [he, head?_before, Option.some.injEq] at hhead
  exact (Opening.char_inj hhead).symm

theorem text_cancel {op op' : Operator} {r r' : Rest}
    (h : r.push op.text.toList = r'.push op'.text.toList) : op = op' ∧ r = r' := by
  cases op <;> cases op' <;>
    simp [Operator.text, Rest.push, Rest.ext_iff] at h ⊢ <;> exact h

theorem isNull_cancel {negated negated' : Bool} {r r' : Rest}
    (h : r.push (if negated then " IS NOT NULL)" else " IS NULL)").toList =
      r'.push (if negated' then " IS NOT NULL)" else " IS NULL)").toList) : negated = negated' := by
  cases negated <;> cases negated' <;> simp [Rest.push] at h ⊢

theorem operator_ne_isNull {op : Operator} {negated : Bool} {r r' : Rest} :
    r.push op.text.toList ≠ r'.push (if negated then " IS NOT NULL)" else " IS NULL)").toList := by
  cases op <;> cases negated <;> simp [Operator.text, Rest.push]

/-- Expressions are read back by their first character. A parenthesis opens an operation or a test
for null; these two differ behind the expression that comes first in both. -/
theorem readBack : ReadBack d (Expr.pieces d) Ends := by
  have hblank (s : List Char) (r : Rest) : Ends (r.push (' ' :: s)).text :=
    Or.inr ⟨" ", by decide, s ++ r.text, rfl⟩
  have hclosed (r : Rest) : Ends (r.push [')']).text :=
    Or.inr ⟨")", by decide, r.text, rfl⟩
  have hop (op : Operator) (r : Rest) : Ends (r.push op.text.toList).text := by
    cases op <;> exact hblank _ r
  have hnull (negated : Bool) (r : Rest) :
      Ends (r.push (if negated then " IS NOT NULL)" else " IS NULL)").toList).text := by
    cases negated <;> exact hblank _ r
  intro e e' index r r' hr hr' he
  induction e generalizing e' index r r' with
  | column q name =>
    cases e' with
    | column q' name' =>
      have hname := readBack_qualified (d := d) (a := (q, name)) (b := (q', name')) hr hr' he
      simpa using hname
    | _ => cases opening_eq he
  | bound v =>
    cases e' with
    | bound v' =>
      simp only [pieces, before, Rest.push_inj, Rest.mk.injEq, List.cons.injEq] at he
      obtain ⟨htext, rfl, hvalues⟩ := he
      exact ⟨rfl, Rest.ext htext hvalues⟩
    | _ => cases opening_eq he
  | truth b =>
    cases e' with
    | truth b' =>
      cases opening_eq he
      exact ⟨rfl, Rest.push_inj.mp he⟩
    | _ => cases opening_eq he
  | binary left op right ihl ihr =>
    cases e' with
    | binary left' op' right' =>
      rw [before_binary, before_binary, Rest.push_inj] at he
      obtain ⟨rfl, hnext⟩ := ihl (hop op _) (hop op' _) he
      obtain ⟨rfl, hright⟩ := text_cancel hnext
      obtain ⟨rfl, hrest⟩ := ihr (hclosed r) (hclosed r') hright
      exact ⟨rfl, Rest.push_inj.mp hrest⟩
    | isNull e' negated =>
      rw [before_binary, before_isNull, Rest.push_inj] at he
      exact absurd (ihl (hop op _) (hnull negated _) he).2 operator_ne_isNull
    | _ => cases opening_eq he
  | isNull e negated ih =>
    cases e' with
    | binary left' op' right' =>
      rw [before_binary, before_isNull, Rest.push_inj] at he
      exact absurd (ih (hnull negated _) (hop op' _) he).2.symm operator_ne_isNull
    | isNull e' negated' =>
      rw [before_isNull, before_isNull, Rest.push_inj] at he
      obtain ⟨rfl, hrest⟩ := ih (hnull negated r) (hnull negated' r') he
      cases isNull_cancel hrest
      exact ⟨rfl, Rest.push_inj.mp hrest⟩
    | _ => cases opening_eq he
  | everything =>
    cases e' with
    | everything => simpa [pieces, before, Rest.push_inj] using he
    | _ => cases opening_eq he

theorem readBack_follows {stops : List String}
    (h : ∀ w ∈ stops, ∃ v ∈ ends, v.toList <+: w.toList) :
    ReadBack d (Expr.pieces d) (Follows stops) :=
  readBack.mono fun _ ht => ht.coarser h

/-- The first characters of expressions, in all dialects. -/
def starts : List String := ["\"", "\x60", "$", "?", "T", "F", "(", "*"]

theorem beginsWith : BeginsWith d starts (Expr.pieces d) := by
  intro e index r
  have hhead := head?_before (d := d) e index r
  obtain ⟨t, ht⟩ : ∃ t, (before d index (e.pieces d) r).text = e.opening.char d :: t :=
    List.head?_eq_some_iff.mp hhead
  rw [ht]
  refine ⟨String.ofList [e.opening.char d], ?_, ?_⟩
  · cases d <;> rcases e.opening with _ | _ | (_ | _) | _ | _ <;> decide
  · rw [String.toList_ofList]
    exact List.prefix_append [_] t

end Expr

/-! ## Sort terms and tables -/

theorem readBack_direction (stop : List Char → Prop) : ReadBack d directionPieces stop := by
  intro a b index r r' _ _ he
  cases a <;> cases b <;> simp [directionPieces, before, Rest.push, Rest.ext_iff] at he ⊢ <;>
    exact he

theorem readBack_nulls (stop : List Char → Prop) : ReadBack d nullsPieces stop := by
  intro a b index r r' _ _ he
  cases a <;> cases b <;> simp [nullsPieces, before, Rest.push, Rest.ext_iff] at he ⊢ <;>
    exact he

theorem beginsWith_direction : BeginsWith d [" ASC", " DESC"] directionPieces := by
  intro a index r
  cases a
  · exact ⟨" ASC", by decide, List.prefix_append _ _⟩
  · exact ⟨" DESC", by decide, List.prefix_append _ _⟩

theorem beginsWith_nulls : BeginsWith d [" NULLS "] nullsPieces := by
  intro a index r
  refine ⟨" NULLS ", by decide, ?_⟩
  cases a <;> simp [nullsPieces, before, Rest.push]

theorem SortTerm.readBack :
    ReadBack d (SortTerm.nativePieces d) (Follows [", ", " LIMIT "]) := by
  have hnulls : ReadBack d (clause nullsPieces) (Follows [", ", " LIMIT "]) :=
    (readBack_nulls _).clause beginsWith_nulls (by decide)
  have hdirection : ReadBack d (clause directionPieces) (Follows [" NULLS ", ", ", " LIMIT "]) :=
    (readBack_direction _).clause beginsWith_direction (by decide)
  have hexpr : ReadBack d (Expr.pieces d)
      (Follows [" ASC", " DESC", " NULLS ", ", ", " LIMIT "]) :=
    Expr.readBack_follows (by decide)
  have hplace := hdirection.append hnulls beginsWith_nulls.leads
  have hterm := hexpr.append hplace (beginsWith_direction.leads.append beginsWith_nulls.leads)
  exact hterm.comap (k := fun t : SortTerm => (t.expr, t.direction, t.nulls))
    fun ⟨_, _, _⟩ ⟨_, _, _⟩ h => by simpa using h

theorem SortTerm.beginsWith : BeginsWith d Expr.starts (SortTerm.nativePieces d) := by
  intro t index r
  rw [SortTerm.nativePieces, before_append]
  exact Expr.beginsWith t.expr index _

theorem TableReference.readBack :
    ReadBack d (TableReference.pieces d) (Follows [" WHERE ", " ORDER BY ", " LIMIT "]) := by
  have hname : ReadBack d (fun name => [.text (d.quote name)])
      (Follows [" WHERE ", " ORDER BY ", " LIMIT "]) :=
    readBack_quote.mono fun t ht => by
      have hends : Ends t := ht.coarser (by decide)
      exact hends.head?_ne (by cases d <;> decide)
  have hlabel : ReadBack d (clause (labelPieces d))
      (Follows [" WHERE ", " ORDER BY ", " LIMIT "]) :=
    (hname.behind " AS ").clause (beginsWith_text " AS " _) (by decide)
  have htable : ReadBack d (fun x : Option String × String => [.text (qualified d x.1 x.2)])
      (Follows [" AS ", " WHERE ", " ORDER BY ", " LIMIT "]) :=
    readBack_qualified.mono fun t ht => ht.coarser (by decide)
  have hlead : BeginsWith d [" AS "] (labelPieces d) := beginsWith_text " AS " _
  have hparts := ((htable.append hlabel hlead.leads).behind "FROM ").comap
    (k := fun s : TableReference => ((s.table.schema, s.table.name), s.label))
    fun ⟨⟨_, _⟩, _⟩ ⟨⟨_, _⟩, _⟩ h => by simp_all
  simpa only [← TableReference.pieces_eq] using hparts

/-! ## Queries -/

theorem Expr.readBack_clause {s : String} {stops : List String}
    (hends : ∀ w ∈ stops, ∃ v ∈ ends, v.toList <+: w.toList) (ha : Apart stops [s]) :
    ReadBack d (clause fun e : Expr => .text s :: e.pieces d) (Follows stops) :=
  ((readBack_follows hends).behind s).clause (beginsWith_text s _) ha

theorem beginsWith_source : BeginsWith d [" FROM "]
    (fun source : TableReference => .text " " :: source.pieces d) := by
  intro source index r
  exact ⟨" FROM ", by decide, _, rfl⟩

theorem readBack_source : ReadBack d
    (clause fun source : TableReference => .text " " :: source.pieces d)
    (Follows [" WHERE ", " ORDER BY ", " LIMIT "]) :=
  (TableReference.readBack.behind " ").clause beginsWith_source (by decide)

theorem readBack_order : ReadBack d (clause (nativeOrderPieces d)) (Follows [" LIMIT "]) := by
  have hterms := (SortTerm.readBack (d := d)).commaSeparated SortTerm.beginsWith (by decide)
  exact (hterms.behind " ORDER BY ").clause (beginsWith_text " ORDER BY " _) (by decide)

theorem Select.terms?_inj {s s' : Select} (h : s.terms? = s'.terms?) : s.order = s'.order := by
  rw [terms?, terms?] at h
  grind

/-- The clauses of a query each begin with words of their own, in the one order in which they are
laid out. -/
theorem Select.readBack_native : ReadBack d (Select.nativePieces d) (Follows []) := by
  have hcolumns : ReadBack d
      (fun columns : List Expr => commaSeparated (columns.map (Expr.pieces d)))
      (Follows [" FROM ", " WHERE ", " ORDER BY ", " LIMIT "]) :=
    (Expr.readBack_follows (by decide)).commaSeparated Expr.beginsWith (by decide)
  have hfilter : ReadBack d (clause fun e : Expr => .text " WHERE " :: e.pieces d)
      (Follows [" ORDER BY ", " LIMIT "]) := Expr.readBack_clause (by decide) (by decide)
  have hlimit : ReadBack d (clause fun e : Expr => .text " LIMIT " :: e.pieces d)
      (Follows []) := Expr.readBack_clause (by decide) (by decide)
  have hleadLimit : Leads d (clause fun e : Expr => .text " LIMIT " :: e.pieces d)
      [] [" LIMIT "] := (beginsWith_text " LIMIT " _).leads
  have hleadOrder := (BeginsWith.leads (beginsWith_text " ORDER BY " _ :
    BeginsWith d [" ORDER BY "] (nativeOrderPieces d))).append hleadLimit
  have hleadFilter := ((beginsWith_text (d := d) " WHERE "
    fun e : Expr => e.pieces d).leads).append hleadOrder
  have hrest := hfilter.append (readBack_order.append hlimit hleadLimit) hleadOrder
  have hall := hcolumns.append (readBack_source.append hrest hleadFilter)
    (beginsWith_source.leads.append hleadFilter)
  exact (hall.behind "SELECT ").comap
    (k := fun s : Select => (s.columns, s.source, s.filter, s.terms?, s.limit))
    fun s s' h => by
      simp only [Prod.mk.injEq] at h
      obtain ⟨hc, hs, hf, ho, hl⟩ := h
      have horder := Select.terms?_inj ho
      cases s
      cases s'
      simp_all

theorem Select.readBack : ReadBack .postgres (Select.pieces .postgres) (Follows []) := by
  have hnative : Select.pieces .postgres = Select.nativePieces .postgres :=
    funext fun s => pieces_of_native fun t _ => Or.inl rfl
  rw [hnative]
  exact readBack_native

/-! ## Rendered text -/

/-- Text and parameters tell the expression, and the query if nulls are placed by words. Names
change neither the text outside of quotations nor the parameters. -/
theorem rendered_injective (d : Dialect) :
    (∀ e e' : Expr, e.rendered d = e'.rendered d ↔ e = e') ∧
    (∀ s s' : Select, s.rendered .postgres = s'.rendered .postgres ↔ s = s') ∧
    (∀ e e' : Expr, e.Renames e' → (e.rendered d).outside d = (e'.rendered d).outside d ∧
      (e.rendered d).parameters = (e'.rendered d).parameters) ∧
    ∀ s s' : Select, s.Renames s' → (s.rendered d).outside d = (s'.rendered d).outside d ∧
      (s.rendered d).parameters = (s'.rendered d).parameters := by
  refine ⟨fun e e' => ?_, fun s s' => ?_, fun e e' h => h.outside_eq d, fun s s' h => h.outside_eq d⟩
  · exact (Expr.readBack_follows (by decide)).rendered_eq_iff
  · exact Select.readBack.rendered_eq_iff

/-- A point between marks is no qualifier, and a name with a condition in it is a name. -/
theorem rendered_injective_marks :
    (Expr.column none "a\".\"b").rendered .postgres ≠
      (Expr.column (some "a") "b").rendered .postgres ∧
    (Expr.column none "a\" OR TRUE --").Renames (.column none "a") ∧
    ((Expr.column none "a\" OR TRUE --").rendered .postgres).outside .postgres =
      ((Expr.column none "a").rendered .postgres).outside .postgres := by
  have hrenames : (Expr.column none "a\" OR TRUE --").Renames (.column none "a") :=
    .column .none trivial
  obtain ⟨hexpr, -, houtside, -⟩ := rendered_injective .postgres
  refine ⟨fun h => ?_, hrenames, (houtside _ _ hrenames).1⟩
  exact absurd ((hexpr _ _).mp h) (by decide)

end Keyset.Sql
