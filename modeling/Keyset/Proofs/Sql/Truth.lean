import Keyset.Sql.Seek
import Keyset.Proofs.Sql.Meaning

/-! # The truth of conditions

A condition holds of a row or does not, but its expression can be unknown too.
Read with three truth values, a condition compares as SQL does and joins its
parts by the connectives of SQL (`Condition.truth`), and that is the value of
its expression (`verdict_expr`). No condition is negated, so it makes no
difference which of its parts are unknown and which are false: the value is
true exactly if the condition holds (`truth_eq_true_iff`). -/

namespace Keyset

open Sql

/-! ## Joining three truth values -/

namespace Sql.Truth

instance : Std.Associative Truth.and where
  assoc a b c := by
    rcases a with _ | _ | _ <;> rcases b with _ | _ | _ <;> rcases c with _ | _ | _ <;> rfl

instance : Std.Associative Truth.or where
  assoc a b c := by
    rcases a with _ | _ | _ <;> rcases b with _ | _ | _ <;> rcases c with _ | _ | _ <;> rfl

instance : Std.LawfulIdentity Truth.and (some true) where
  left_id a := by rcases a with _ | _ | _ <;> rfl
  right_id a := by rcases a with _ | _ | _ <;> rfl

instance : Std.LawfulIdentity Truth.or (some false) where
  left_id a := by rcases a with _ | _ | _ <;> rfl
  right_id a := by rcases a with _ | _ | _ <;> rfl

end Sql.Truth

/-! ## The truth value of an expression -/

namespace Sql.Database

/-- The truth value of an expression on a row. -/
def verdict (db : Database) (table : String) (row : Row) (e : Expr) : Truth :=
  db.truthOf (db.value table row e)

variable {db : Database} {table : String} {qualifier : Option String} {row : Row}

theorem holds_iff_verdict {e : Expr} :
    db.holds table row e = true ↔ db.verdict table row e = some true := decide_eq_true_iff

/-- An unqualified name means the table that is read, and so does a name that it has. -/
theorem value_column (h : ∀ q ∈ qualifier, q = table) (name : String) :
    db.value table row (.column qualifier name) = row.value name := by
  cases qualifier with
  | none => rfl
  | some q => exact if_pos (h q rfl)

/-- What qualifies columns is the name of the table that they are taken from. -/
theorem eq_getD_of_mem : ∀ q ∈ qualifier, q = qualifier.getD table := by
  intro q hq
  rw [hq, Option.getD_some]

theorem verdict_truth (b : Bool) : db.verdict table row (.truth b) = some b := rfl

theorem verdict_binary (left right : Expr) (op : Operator) :
    db.verdict table row (.binary left op right) =
      db.apply op (db.value table row left) (db.value table row right) := truthOf_value _

theorem verdict_and (e f : Expr) : db.verdict table row (e.and f) =
    (db.verdict table row e).and (db.verdict table row f) := verdict_binary e f .and

theorem verdict_or (e f : Expr) : db.verdict table row (e.or f) =
    (db.verdict table row e).or (db.verdict table row f) := verdict_binary e f .or

theorem apply_operator (op : Comparison) (a b : Value) :
    db.apply op.operator a b = (a.compare? b).map op.accepts := by
  cases op <;> rfl

/-- What joins two expressions joins any number of them. -/
theorem verdict_join {join : Expr → Expr → Expr} {op : Truth → Truth → Truth} {unit : Bool}
    [Std.Associative op] [Std.LawfulIdentity op (some unit)]
    (h : ∀ e f, db.verdict table row (join e f) =
      op (db.verdict table row e) (db.verdict table row f)) (es : List Expr) :
    db.verdict table row (.join join (.truth unit) es) =
      es.foldr (fun e rest => op (db.verdict table row e) rest) (some unit) := by
  have assoc : ∀ a b c, op (op a b) c = op a (op b c) := Std.Associative.assoc
  have unit_right : ∀ a, op a (some unit) = a := Std.LawfulRightIdentity.right_id
  have hfold (es : List Expr) (e : Expr) : db.verdict table row (es.foldl join e) =
      op (db.verdict table row e)
        (es.foldr (fun e rest => op (db.verdict table row e) rest) (some unit)) := by
    induction es generalizing e with
    | nil => rw [List.foldl_nil, List.foldr_nil, unit_right]
    | cons f es ih => rw [List.foldl_cons, ih, h, List.foldr_cons, assoc]
  cases es with
  | nil => rfl
  | cons e es => rw [Expr.join, hfold, List.foldr_cons]

end Sql.Database

/-! ## Conditions with three truth values -/

namespace Condition

mutual

/-- The truth value of a condition: a comparison with null is unknown, any other is decided by the
order of values. -/
def truth (row : Row) : Condition → Truth
  | .never => some false
  | .compare column op value => ((row.value column).compare? value).map op.accepts
  | .isNull column negated => some ((row.value column).isNull != negated)
  | .and parts => allTruth row parts
  | .or parts => anyTruth row parts

def allTruth (row : Row) : List Condition → Truth
  | [] => some true
  | p :: ps => (p.truth row).and (allTruth row ps)

def anyTruth (row : Row) : List Condition → Truth
  | [] => some false
  | p :: ps => (p.truth row).or (anyTruth row ps)

end

variable {db : Database} {table : String} {qualifier : Option String} {row : Row}

theorem compare_truth_eq_true_iff {column : String} {op : Comparison} {v : Value} :
    (compare column op v).truth row = some true ↔ (compare column op v).holds row = true := by
  rw [truth, holds, Value.compare?]
  cases hcell : (row.value column).isNull <;> cases hv : v.isNull <;> simp

mutual

/-- A condition is true, neither false nor unknown, of the rows of which it holds. -/
theorem truth_eq_true_iff : ∀ c : Condition, c.truth row = some true ↔ c.holds row = true
  | .never => by simp [truth, holds]
  | .compare .. => compare_truth_eq_true_iff
  | .isNull .. => by simp [truth, holds]
  | .and parts => by rw [truth, holds, allTruth_eq_true_iff parts]
  | .or parts => by rw [truth, holds, anyTruth_eq_true_iff parts]

theorem allTruth_eq_true_iff :
    ∀ parts : List Condition, allTruth row parts = some true ↔ allHold row parts = true
  | [] => by simp [allTruth, allHold]
  | p :: ps => by
    rw [allTruth, allHold, Truth.and_eq_true, Bool.and_eq_true, truth_eq_true_iff p,
      allTruth_eq_true_iff ps]

theorem anyTruth_eq_true_iff :
    ∀ parts : List Condition, anyTruth row parts = some true ↔ anyHolds row parts = true
  | [] => by simp [anyTruth, anyHolds]
  | p :: ps => by
    rw [anyTruth, anyHolds, Truth.or_eq_true, Bool.or_eq_true, truth_eq_true_iff p,
      anyTruth_eq_true_iff ps]

end

open Database

mutual

/-- The expression of a condition has the truth value of the condition. -/
theorem verdict_expr (h : ∀ q ∈ qualifier, q = table) :
    ∀ c : Condition, db.verdict table row (c.expr qualifier) = c.truth row
  | .never => by rw [expr, verdict_truth, truth]
  | .compare column op v => by
    rw [expr, verdict_binary, value_column h, Database.value, apply_operator, truth]
  | .isNull column negated => by rw [expr, verdict, Database.value, value_column h, truthOf, truth]
  | .and parts => by rw [expr, verdict_join verdict_and, truth, foldr_and_exprs h parts]
  | .or parts => by rw [expr, verdict_join verdict_or, truth, foldr_or_exprs h parts]

theorem foldr_and_exprs (h : ∀ q ∈ qualifier, q = table) : ∀ parts : List Condition,
    (exprs qualifier parts).foldr (fun e rest => (db.verdict table row e).and rest) (some true) =
      allTruth row parts
  | [] => by rw [exprs, List.foldr_nil, allTruth]
  | p :: ps => by
    rw [exprs, List.foldr_cons, allTruth, verdict_expr h p, foldr_and_exprs h ps]

theorem foldr_or_exprs (h : ∀ q ∈ qualifier, q = table) : ∀ parts : List Condition,
    (exprs qualifier parts).foldr (fun e rest => (db.verdict table row e).or rest) (some false) =
      anyTruth row parts
  | [] => by rw [exprs, List.foldr_nil, anyTruth]
  | p :: ps => by
    rw [exprs, List.foldr_cons, anyTruth, verdict_expr h p, foldr_or_exprs h ps]

end

/-- **A condition and its expression mean the same.** On any row of a table, read under the name
that qualifies columns or any name if none does, the expression of a condition has the truth value
that the condition has by three-valued logic. So it is true exactly of the rows of which the
condition holds, whatever else the standard leaves to the database. -/
theorem expr_true_iff (db : Database) (table : String) (qualifier : Option String) (row : Row)
    (c : Condition) :
    db.verdict (qualifier.getD table) row (c.expr qualifier) = c.truth row ∧
      (db.verdict (qualifier.getD table) row (c.expr qualifier) = some true ↔
        c.holds row = true) := by
  have htruth : db.verdict (qualifier.getD table) row (c.expr qualifier) = c.truth row :=
    verdict_expr eq_getD_of_mem c
  exact ⟨htruth, by rw [htruth, truth_eq_true_iff]⟩

end Condition

end Keyset
