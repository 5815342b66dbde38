import Keyset.Proofs.Number.Digits
import Keyset.Proofs.Sql.Shape

/-! # Text outside of quotations

A mark begins a quotation and the next one ends it, so a doubled mark ends one
and begins another. A name is quoted in such a way that nothing of it stands
outside (`outside_quote`), and no placeholder has a mark in it. Queries that
differ in names only are therefore one text outside of quotations, with the same
parameters (`Select.Renames.outside_eq`). -/

namespace Keyset.Sql

/-- The characters that stand outside of quotations, in text that starts in one or not. -/
def Dialect.outside (d : Dialect) : Bool → List Char → List Char
  | _, [] => []
  | quoted, c :: cs =>
    if c = d.quoteMark then d.outside (!quoted) cs
    else if quoted then d.outside quoted cs
    else c :: d.outside quoted cs

namespace Rendered

/-- The text of a query outside of quotations. -/
def outside (d : Dialect) (q : Rendered) : String := String.ofList (d.outside false q.sql.toList)

end Rendered

variable {d : Dialect}

/-! ## Names and placeholders -/

theorem outside_doubled (cs t : List Char) :
    d.outside true (cs.flatMap (fun c => if c = d.quoteMark then [d.quoteMark, d.quoteMark] else [c])
      ++ d.quoteMark :: t) = d.outside false t := by
  induction cs with
  | nil => simp [Dialect.outside]
  | cons c cs ih =>
    -- a doubled mark is a step out of the quotation and one back into it
    by_cases hc : c = d.quoteMark <;> simpa [hc, Dialect.outside] using ih

theorem outside_quote (name : String) (t : List Char) :
    d.outside false ((d.quote name).toList ++ t) = d.outside false t := by
  simpa [Dialect.quote, Dialect.outside] using outside_doubled name.toList t

theorem outside_plain {cs : List Char} (h : d.quoteMark ∉ cs) (t : List Char) :
    d.outside false (cs ++ t) = cs ++ d.outside false t := by
  induction cs with
  | nil => rfl
  | cons c cs ih =>
    rw [List.mem_cons, not_or] at h
    simp [Dialect.outside, Ne.symm h.1, ih h.2]

theorem quoteMark_notMem_placeholder (index : Nat) :
    d.quoteMark ∉ (d.placeholder index).toList := by
  cases d with
  | mysql => simp [Dialect.placeholder, Dialect.quoteMark]
  | postgres =>
    intro h
    have hmem : '"' ∈ Nat.toDigits 10 (index + 1) := by
      simpa [Dialect.placeholder, Dialect.quoteMark, toString, Nat.repr] using h
    exact absurd ((Number.isDigits_toDigits (index + 1)).2 _ hmem) (by decide)

/-! ## Queries -/

/-- Texts that leave the same outside of quotations, whatever stands behind them. -/
def SameOutside (d : Dialect) (s s' : String) : Prop :=
  ∀ t t', d.outside false t = d.outside false t' →
    d.outside false (s.toList ++ t) = d.outside false (s'.toList ++ t')

/-- Names leave nothing outside of quotations, whatever they are. -/
theorem quotes_sameOutside (d : Dialect) : Quotes d (fun _ _ => True) (SameOutside d) where
  quote _ t t' h := by rw [outside_quote, outside_quote, h]
  qualified _ _ t t' h := by
    have hpoint (cs : List Char) : d.outside false (".".toList ++ cs) =
        ".".toList ++ d.outside false cs := outside_plain (by cases d <;> decide) cs
    simp only [qualified, String.toList_append, List.append_assoc]
    rw [outside_quote, hpoint, outside_quote, outside_quote, hpoint, outside_quote, h]
  plain hs t t' h := by rw [outside_plain hs, outside_plain hs, h]

theorem Piece.outside_eq {V : Value → Value → Prop} {ps qs : List Piece}
    (h : List.Forall₂ (Alike (SameOutside d) V) ps qs) (index : Nat) :
    d.outside false (sql d index ps).toList = d.outside false (sql d index qs).toList := by
  induction h generalizing index with
  | nil => rfl
  | cons hp _ ih =>
    cases hp with
    | text hs =>
      rw [sql, sql, String.toList_append, String.toList_append]
      exact hs _ _ (ih index)
    | bound _ =>
      have hmark := quoteMark_notMem_placeholder (d := d) index
      rw [sql, sql, String.toList_append, String.toList_append, outside_plain hmark,
        outside_plain hmark, ih]

theorem Piece.rendered_outside_eq {ps qs : List Piece}
    (h : List.Forall₂ (Alike (SameOutside d) Eq) ps qs) :
    (rendered d ps).outside d = (rendered d qs).outside d ∧
      (rendered d ps).parameters = (rendered d qs).parameters := by
  refine ⟨congrArg String.ofList (Piece.outside_eq h 0), ?_⟩
  have hvalues := parameters_alike h
  rwa [List.forall₂_eq_eq_eq] at hvalues

theorem Expr.Renames.outside_eq {e e' : Expr} (h : e.Renames e') (d : Dialect) :
    (e.rendered d).outside d = (e'.rendered d).outside d ∧
      (e.rendered d).parameters = (e'.rendered d).parameters :=
  Piece.rendered_outside_eq (Expr.Alike.pieces (quotes_sameOutside d) h)

theorem Select.Renames.outside_eq {s s' : Select} (h : s.Renames s') (d : Dialect) :
    (s.rendered d).outside d = (s'.rendered d).outside d ∧
      (s.rendered d).parameters = (s'.rendered d).parameters :=
  Piece.rendered_outside_eq (Select.Alike.pieces (quotes_sameOutside d) h)

end Keyset.Sql
