import Keyset.Proofs.Sql.Parameters
import Keyset.Proofs.Sql.Quotation

/-! # Placeholders and parameters line up

A reader of the text passes over quotations, and takes a placeholder as a whole:
a sign with all digits behind it, or a sign alone. The words that a query is made
of hold no sign and no digit, so whatever the names are, the reader comes upon
the placeholders that were written, in their order (`AllSealed.holes_sql`). Read
with the parameters in them, they are the values of the query in their places
(`AllSealed.filled_sql`). -/

namespace Keyset.Sql

/-! ## Reading the text -/

/-- What a text is made of outside of quotations: characters, and holes of some kind. -/
inductive Lexeme (α : Type) where
  | char (c : Char)
  | hole (a : α)

namespace Lexeme

variable {α : Type}

def hole? : Lexeme α → Option α
  | .char _ => none
  | .hole a => some a

/-- What is in the holes. -/
def holes (ls : List (Lexeme α)) : List α := ls.filterMap hole?

theorem holes_append (ls ms : List (Lexeme α)) : holes (ls ++ ms) = holes ls ++ holes ms :=
  List.filterMap_append

theorem holes_hole (a : α) (ls : List (Lexeme α)) : holes (.hole a :: ls) = a :: holes ls := rfl

theorem holes_map_char (cs : List Char) : holes (cs.map (char (α := α))) = [] := by
  simp [holes, hole?]

/-- The holes filled with values, in order. A hole that no value is left for is left out. -/
def filled : List (Lexeme α) → List Value → List (Lexeme Value)
  | [], _ => []
  | .char c :: ls, vs => .char c :: filled ls vs
  | .hole _ :: ls, v :: vs => .hole v :: filled ls vs
  | .hole _ :: ls, [] => filled ls []

theorem filled_map_char (cs : List Char) (ls : List (Lexeme α)) (vs : List Value) :
    filled (cs.map .char ++ ls) vs = cs.map .char ++ filled ls vs := by
  induction cs with
  | nil => rfl
  | cons c cs ih => rw [List.map_cons, List.cons_append, filled, ih]; rfl

end Lexeme

namespace Dialect

/-- The character that a placeholder begins with. -/
def sign : Dialect → Char
  | .postgres => '$'
  | .mysql => '?'

/-- The number of a placeholder, of the text behind its sign: all digits, in a dialect that has
numbers. -/
def number (d : Dialect) (cs : List Char) : List Char :=
  match d with
  | .postgres => cs.takeWhile Char.isDigit
  | .mysql => []

/-- What is left of a text behind the next quotation mark. -/
def unquoted (d : Dialect) (cs : List Char) : List Char := (cs.dropWhile (· ≠ d.quoteMark)).tail

theorem length_unquoted_le (d : Dialect) (cs : List Char) : (d.unquoted cs).length ≤ cs.length := by
  have h := (List.dropWhile_suffix (l := cs) (· ≠ d.quoteMark)).length_le
  rw [unquoted, List.length_tail]
  omega

/-- The text outside of quotations, its placeholders as holes. A mark that is doubled in a quotation
ends it and begins the next one. -/
def lexemes (d : Dialect) : List Char → List (Lexeme String)
  | [] => []
  | c :: cs =>
    if c = d.quoteMark then d.lexemes (d.unquoted cs)
    else if c = d.sign then
      .hole (String.ofList (c :: d.number cs)) :: d.lexemes (cs.drop (d.number cs).length)
    else .char c :: d.lexemes cs
  termination_by cs => cs.length
  decreasing_by
  · exact Nat.lt_succ_of_le (d.length_unquoted_le cs)
  · simp only [List.length_drop, List.length_cons]
    omega
  · exact Nat.lt_succ_self _

end Dialect

/-- What is read in the text of a query. -/
def Rendered.lexemes (d : Dialect) (q : Rendered) : List (Lexeme String) := d.lexemes q.sql.toList

/-- The pieces with each value in its place, without what stands in quotations. -/
def Piece.inPlace (d : Dialect) : List Piece → List (Lexeme Value)
  | [] => []
  | .text s :: ps => (d.outside false s.toList).map .char ++ inPlace d ps
  | .bound v :: ps => .hole v :: inPlace d ps

/-- The same but for bound values. -/
def Select.Rebinds : Select → Select → Prop := Alike Eq fun _ _ => True

variable {d : Dialect}

/-! ## Texts that are read by themselves -/

theorem lexemes_quoteMark (cs : List Char) :
    d.lexemes (d.quoteMark :: cs) = d.lexemes (d.unquoted cs) := by
  rw [Dialect.lexemes, if_pos rfl]

theorem lexemes_plain {c : Char} (cs : List Char) (hmark : c ≠ d.quoteMark) (hsign : c ≠ d.sign) :
    d.lexemes (c :: cs) = .char c :: d.lexemes cs := by
  rw [Dialect.lexemes, if_neg hmark, if_neg hsign]

/-- A text that is read the same whatever stands behind it, that has no placeholder, and that does
not go on with a number before it. -/
structure Sealed (d : Dialect) (s : String) : Prop where
  starts : ∃ c cs, s.toList = c :: cs ∧ c.isDigit = false
  outside : ∀ t, d.outside false (s.toList ++ t) = d.outside false s.toList ++ d.outside false t
  lexes : ∀ t, d.lexemes (s.toList ++ t) = (d.outside false s.toList).map .char ++ d.lexemes t

theorem Sealed.append {s s' : String} (h : Sealed d s) (h' : Sealed d s') :
    Sealed d (s ++ s') where
  starts := by
    obtain ⟨c, cs, hs, hc⟩ := h.starts
    exact ⟨c, cs ++ s'.toList, by rw [String.toList_append, hs, List.cons_append], hc⟩
  outside t := by
    rw [String.toList_append, List.append_assoc, h.outside, h'.outside, h.outside,
      List.append_assoc]
  lexes t := by
    rw [String.toList_append, List.append_assoc, h.lexes, h'.lexes, h.outside, List.map_append,
      List.append_assoc]

/-- The text has no quotation mark, sign or digit of any dialect. -/
def isWording (s : String) : Bool :=
  s ≠ "" && s.toList.all fun c => ['"', '\x60', '$', '?'].all (c ≠ ·) && !c.isDigit

theorem lexemes_wording {cs : List Char} (h : ∀ c ∈ cs, c ≠ d.quoteMark ∧ c ≠ d.sign)
    (t : List Char) : d.lexemes (cs ++ t) = cs.map .char ++ d.lexemes t := by
  induction cs with
  | nil => rfl
  | cons c cs ih =>
    obtain ⟨hc, hcs⟩ := List.forall_mem_cons.mp h
    rw [List.cons_append, lexemes_plain _ hc.1 hc.2, ih hcs, List.map_cons, List.cons_append]

theorem sealed_wording {s : String} (h : isWording s = true := by rfl) : Sealed d s := by
  obtain ⟨hne, hall⟩ : s ≠ "" ∧ ∀ c ∈ s.toList, (c ≠ '"' ∧ c ≠ '\x60' ∧ c ≠ '$' ∧ c ≠ '?') ∧
      c.isDigit = false := by
    simpa [isWording] using h
  have hmark : ∀ c ∈ s.toList, c ≠ d.quoteMark ∧ c ≠ d.sign := by
    intro c hc
    obtain ⟨⟨hdouble, hback, hdollar, hquestion⟩, -⟩ := hall c hc
    cases d with
    | postgres => exact ⟨hdouble, hdollar⟩
    | mysql => exact ⟨hback, hquestion⟩
  have houtside := outside_plain (d := d) fun hq => (hmark _ hq).1 rfl
  have hself := houtside []
  rw [List.append_nil, Dialect.outside, List.append_nil] at hself
  constructor
  · obtain ⟨c, cs, hs⟩ := List.exists_cons_of_ne_nil fun hnil => hne (String.toList_inj.mp hnil)
    exact ⟨c, cs, hs, (hall c (hs ▸ List.mem_cons_self)).2⟩
  · intro t
    rw [houtside, hself]
  · intro t
    rw [lexemes_wording hmark, hself]

theorem lexemes_doubled (cs t : List Char) :
    d.lexemes (d.unquoted (cs.flatMap (fun c => if c = d.quoteMark then [d.quoteMark, d.quoteMark]
      else [c]) ++ d.quoteMark :: t)) = d.lexemes t := by
  induction cs with
  | nil => simp [Dialect.unquoted]
  | cons c cs ih =>
    by_cases hc : c = d.quoteMark
    · -- the first of two marks ends a quotation, the second begins one
      rw [List.flatMap_cons, if_pos hc, List.append_assoc]
      simpa [Dialect.unquoted, lexemes_quoteMark] using ih
    · simpa [Dialect.unquoted, hc] using ih

theorem sealed_quote (name : String) : Sealed d (d.quote name) := by
  have hself := outside_quote (d := d) name []
  rw [List.append_nil, Dialect.outside] at hself
  constructor
  · exact ⟨d.quoteMark, _, by rw [Dialect.quote, String.toList_ofList]; rfl, by cases d <;> rfl⟩
  · intro t
    rw [outside_quote, hself, List.nil_append]
  · intro t
    have hread := lexemes_doubled (d := d) name.toList t
    rw [← lexemes_quoteMark] at hread
    rw [hself]
    simpa [Dialect.quote] using hread

theorem sealed_qualified (qualifier : Option String) (name : String) :
    Sealed d (qualified d qualifier name) := by
  cases qualifier with
  | none => exact sealed_quote name
  | some q => exact ((sealed_quote q).append sealed_wording).append (sealed_quote name)

/-! ## Pieces -/

namespace Piece

/-- The text of the piece is read by itself. -/
def Sealed (d : Dialect) : Piece → Prop
  | .text s => Sql.Sealed d s
  | .bound _ => True

/-- The pieces are read one by one. -/
def AllSealed (d : Dialect) (ps : List Piece) : Prop := ∀ p ∈ ps, p.Sealed d

theorem allSealed_nil : AllSealed d [] := fun _ h => absurd h List.not_mem_nil

theorem AllSealed.text {s : String} {ps : List Piece} (hs : Sql.Sealed d s)
    (h : AllSealed d ps) : AllSealed d (.text s :: ps) := List.forall_mem_cons.mpr ⟨hs, h⟩

theorem AllSealed.bound {v : Value} {ps : List Piece} (h : AllSealed d ps) :
    AllSealed d (.bound v :: ps) := List.forall_mem_cons.mpr ⟨trivial, h⟩

theorem AllSealed.append {ps qs : List Piece} (h : AllSealed d ps) (h' : AllSealed d qs) :
    AllSealed d (ps ++ qs) := List.forall_mem_append.mpr ⟨h, h'⟩

theorem AllSealed.tail {p : Piece} {ps : List Piece} (h : AllSealed d (p :: ps)) :
    AllSealed d ps := (List.forall_mem_cons.mp h).2

theorem allSealed_clause {α : Type} {f : α → List Piece} (a? : Option α)
    (h : ∀ a, AllSealed d (f a)) : AllSealed d (clause f a?) := by
  cases a? with
  | none => exact allSealed_nil
  | some a => exact h a

theorem allSealed_commaSeparated {items : List (List Piece)} (h : ∀ ps ∈ items, AllSealed d ps) :
    AllSealed d (commaSeparated items) := by
  cases items with
  | nil => exact allSealed_nil
  | cons ps items =>
    obtain ⟨hfirst, hrest⟩ := List.forall_mem_cons.mp h
    rw [commaSeparated_cons]
    refine hfirst.append ?_
    intro p hp
    obtain ⟨qs, hqs, hmem⟩ := List.mem_flatMap.mp hp
    exact AllSealed.text sealed_wording (hrest qs hqs) p hmem

end Piece

open Piece

theorem Expr.allSealed (e : Expr) : AllSealed d (e.pieces d) := by
  induction e with
  | column qualifier name => exact .text (sealed_qualified qualifier name) allSealed_nil
  | bound v => exact .bound allSealed_nil
  | truth b => cases b <;> exact .text sealed_wording allSealed_nil
  | binary left op right ihl ihr =>
    have hop : Sealed d op.text := by cases op <;> exact sealed_wording
    exact ((ihl.text sealed_wording).append (ihr.text hop)).append
      (.text sealed_wording allSealed_nil)
  | isNull e negated ih =>
    cases negated <;>
      exact (ih.text sealed_wording).append (.text sealed_wording allSealed_nil)
  | everything => exact .text sealed_wording allSealed_nil

theorem TableReference.allSealed (s : TableReference) : AllSealed d (s.pieces d) := by
  rw [pieces_eq]
  refine .text sealed_wording ((AllSealed.text (sealed_qualified _ _) allSealed_nil).append ?_)
  exact allSealed_clause s.label fun label =>
    .text sealed_wording (.text (sealed_quote label) allSealed_nil)

theorem SortTerm.allSealed (t : SortTerm) : AllSealed d (t.pieces d) := by
  have hexpr := t.expr.allSealed (d := d)
  have hdirection : AllSealed d (clause directionPieces t.direction) :=
    allSealed_clause _ fun direction => by
      cases direction <;> exact .text sealed_wording allSealed_nil
  have hnulls : AllSealed d (clause nullsPieces t.nulls) :=
    allSealed_clause _ fun place => by cases place <;> exact .text sealed_wording allSealed_nil
  have hkey : AllSealed d (clause (nullKeyPieces d t.expr) t.nulls) :=
    allSealed_clause _ fun place => by
      cases place <;>
        exact (hexpr.text sealed_wording).append (.text sealed_wording allSealed_nil)
  rw [pieces_eq]
  split
  · exact hexpr.append (hdirection.append hnulls)
  · exact hkey.append (hexpr.append hdirection)

theorem Select.allSealed (s : Select) : AllSealed d (s.pieces d) := by
  have hcolumns : AllSealed d (commaSeparated (s.columns.map (·.pieces d))) :=
    allSealed_commaSeparated (List.forall_mem_map.mpr fun e _ => e.allSealed)
  have hterms (terms : List SortTerm) : AllSealed d (orderPieces d terms) :=
    .text sealed_wording (allSealed_commaSeparated (List.forall_mem_map.mpr fun t _ => t.allSealed))
  rw [pieces_eq]
  refine .text sealed_wording (hcolumns.append (AllSealed.append ?_ (AllSealed.append ?_
    (AllSealed.append ?_ ?_))))
  · exact allSealed_clause _ fun source => .text sealed_wording source.allSealed
  · exact allSealed_clause _ fun e => .text sealed_wording e.allSealed
  · exact allSealed_clause _ hterms
  · exact allSealed_clause _ fun e => .text sealed_wording e.allSealed

/-! ## Reading pieces -/

theorem sign_ne_quoteMark (d : Dialect) : d.sign ≠ d.quoteMark := by cases d <;> decide

/-- A placeholder is a sign, and all digits behind it are its number. -/
theorem toList_placeholder (d : Dialect) (index : Nat) :
    ∃ ds, (d.placeholder index).toList = d.sign :: ds ∧
      ∀ t, Number.DigitFree t → d.number (ds ++ t) = ds := by
  cases d with
  | mysql => exact ⟨[], by simp [Dialect.placeholder, Dialect.sign], fun _ _ => rfl⟩
  | postgres =>
    refine ⟨Nat.toDigits 10 (index + 1), ?_, ?_⟩
    · simp [Dialect.placeholder, Dialect.sign, toString, Nat.repr]
    · intro t ht
      exact (Number.isDigits_toDigits (index + 1)).2.takeWhile_append ht

theorem lexemes_placeholder (index : Nat) {t : List Char} (ht : Number.DigitFree t) :
    d.lexemes ((d.placeholder index).toList ++ t) =
      .hole (d.placeholder index) :: d.lexemes t := by
  obtain ⟨ds, hds, hnumber⟩ := toList_placeholder d index
  have htext : String.ofList (d.sign :: ds) = d.placeholder index := by
    rw [← hds, String.ofList_toList]
  rw [hds, List.cons_append, Dialect.lexemes, if_neg (sign_ne_quoteMark d), if_pos rfl,
    hnumber t ht, htext, List.drop_left]

namespace Piece

variable {ps : List Piece}

theorem AllSealed.digitFree_sql (h : AllSealed d ps) (index : Nat) :
    Number.DigitFree (sql d index ps).toList := by
  cases ps with
  | nil => exact Number.digitFree_nil
  | cons p ps =>
    cases p with
    | text s =>
      obtain ⟨c, cs, hs, hc⟩ := (h _ List.mem_cons_self : Sql.Sealed d s).starts
      rw [sql, String.toList_append, hs]
      exact Number.digitFree_cons hc
    | bound v =>
      obtain ⟨ds, hds, -⟩ := toList_placeholder d index
      rw [sql, String.toList_append, hds]
      exact Number.digitFree_cons (by cases d <;> rfl)

theorem AllSealed.lexemes_text {s : String} (h : AllSealed d (.text s :: ps)) (index : Nat) :
    d.lexemes (sql d index (.text s :: ps)).toList =
      (d.outside false s.toList).map .char ++ d.lexemes (sql d index ps).toList := by
  rw [sql, String.toList_append]
  exact (h _ List.mem_cons_self : Sql.Sealed d s).lexes _

theorem AllSealed.lexemes_bound {v : Value} (h : AllSealed d (.bound v :: ps)) (index : Nat) :
    d.lexemes (sql d index (.bound v :: ps)).toList =
      .hole (d.placeholder index) :: d.lexemes (sql d (index + 1) ps).toList := by
  rw [sql, String.toList_append]
  exact lexemes_placeholder index (h.tail.digitFree_sql (index + 1))

/-- The placeholders that are read, where `index` parameters come before. -/
theorem AllSealed.holes_sql (h : AllSealed d ps) (index : Nat) :
    Lexeme.holes (d.lexemes (sql d index ps).toList) =
      (List.range' index (parameters ps).length).map d.placeholder := by
  induction ps generalizing index with
  | nil => simp [sql, Dialect.lexemes, Lexeme.holes]
  | cons p ps ih =>
    have hrest := ih h.tail
    cases p with
    | text s => rw [h.lexemes_text, Lexeme.holes_append, Lexeme.holes_map_char, hrest]; rfl
    | bound v =>
      rw [h.lexemes_bound, Lexeme.holes_hole, hrest, parameters_bound, List.length_cons,
        List.range'_succ, List.map_cons]

/-- With the parameters in the placeholders, the pieces are read. -/
theorem AllSealed.filled_sql (h : AllSealed d ps) (index : Nat) :
    Lexeme.filled (d.lexemes (sql d index ps).toList) (parameters ps) = inPlace d ps := by
  induction ps generalizing index with
  | nil => simp [sql, Dialect.lexemes, Lexeme.filled, inPlace]
  | cons p ps ih =>
    have hrest := ih h.tail
    cases p with
    | text s => rw [h.lexemes_text, Lexeme.filled_map_char, parameters_text, hrest, inPlace]
    | bound v => rw [h.lexemes_bound, parameters_bound, Lexeme.filled, hrest, inPlace]

end Piece

/-! ## Queries -/

/-- **Placeholders and parameters line up.** Outside of quotations the text of a query has as many
placeholders as there are parameters, and the one at each place is the one of that index. With the
parameters in them, they are the values of the query where these stand: the values of its
expressions, clause by clause, and twice where a key is stated twice. Other values leave the text
as it is. -/
theorem Select.placeholders_line_up (d : Dialect) (s : Select) :
    Lexeme.holes ((s.rendered d).lexemes d) =
      (List.range (s.rendered d).parameters.length).map d.placeholder ∧
    Lexeme.filled ((s.rendered d).lexemes d) (s.rendered d).parameters =
      Piece.inPlace d (s.pieces d) ∧
    (s.rendered d).parameters = s.values d ∧
    ∀ s', s.Rebinds s' → (s'.rendered d).sql = (s.rendered d).sql := by
  have hsealed : AllSealed d (s.pieces d) := s.allSealed
  refine ⟨?_, hsealed.filled_sql 0, s.parameters_eq, ?_⟩
  · rw [List.range_eq_range']
    exact hsealed.holes_sql 0
  · intro s' h
    exact (Piece.sql_eq (Alike.pieces (quotes_eq d) h) 0).symm

/-- Posts by what their marks have to do with a value, in columns named like placeholders. -/
def doubtful (done mark : Value) : Select where
  columns := [.everything]
  source := some ⟨⟨none, "posts"⟩, some "p?"⟩
  filter := some (.binary (.column (some "p?") "done?") .equal (.bound done))
  order := [⟨.binary (.column none "$1\x60 ?") .less (.bound mark), some .descending, some .last⟩]
  limit := some (.bound (.uint 5))

/-- Marks in names are no placeholders, and MySQL is given the value of the sort key twice. -/
theorem Select.placeholders_line_up_marks :
    (doubtful (.int 3) (.int 7)).Rebinds (doubtful (.string "?") .null) ∧
    Lexeme.holes (((doubtful (.int 3) (.int 7)).rendered .mysql).lexemes .mysql) =
      ["?", "?", "?", "?"] ∧
    Lexeme.holes (((doubtful (.int 3) (.int 7)).rendered .postgres).lexemes .postgres) =
      ["$1", "$2", "$3"] ∧
    ((doubtful (.int 3) (.int 7)).rendered .mysql).parameters =
      [.int 3, .int 7, .int 7, .uint 5] ∧
    ((doubtful (.string "?") .null).rendered .mysql).sql =
      ((doubtful (.int 3) (.int 7)).rendered .mysql).sql := by
  have hfilter : Expr.Alike Eq (fun _ _ => True)
      (.binary (.column (some "p?") "done?") .equal (.bound (.int 3)))
      (.binary (.column (some "p?") "done?") .equal (.bound (.string "?"))) :=
    .binary .equal (.column (.some rfl) rfl) (.bound trivial)
  have hkey : Expr.Alike Eq (fun _ _ => True)
      (.binary (.column none "$1\x60 ?") .less (.bound (.int 7)))
      (.binary (.column none "$1\x60 ?") .less (.bound .null)) :=
    .binary .less (.column .none rfl) (.bound trivial)
  have hrebinds : (doubtful (.int 3) (.int 7)).Rebinds (doubtful (.string "?") .null) :=
    Alike.mk (.cons .everything .nil) (.some ⟨.none, rfl, .some rfl⟩) (.some hfilter)
      (.cons ⟨hkey, rfl, rfl⟩ .nil) (.some (.bound trivial))
  obtain ⟨hholes, -, hvalues, htext⟩ :=
    placeholders_line_up .mysql (doubtful (.int 3) (.int 7))
  obtain ⟨hnumbered, -, hplain, -⟩ :=
    placeholders_line_up .postgres (doubtful (.int 3) (.int 7))
  refine ⟨hrebinds, ?_, ?_, hvalues, htext _ hrebinds⟩
  · rw [hholes, hvalues]
    decide
  · rw [hnumbered, hplain]
    decide

end Keyset.Sql
