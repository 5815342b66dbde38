import Keyset.Sql.Select
import Keyset.Row
import Keyset.Value.Compare

/-! # What queries mean

The meaning of the queries that are built here, by the SQL standard as far as
it says. Expressions have values, and truth has three of them: a comparison
with null is unknown, and only rows of which the filter is true are kept.
Sorting is stable and puts null where the query says. What the standard leaves
open is left to the database (`Database`).

* `Database.value`: the value of an expression on a row.
* `Database.order`: the order of rows by the sort terms.
* `Database.run`: the answer to a query for whole rows. -/

namespace Keyset.Sql

/-! ## Three truth values -/

/-- True, false, or unknown. -/
abbrev Truth := Option Bool

namespace Truth

def and : Truth → Truth → Truth
  | some false, _ | _, some false => some false
  | some true, some true => some true
  | _, _ => none

def or : Truth → Truth → Truth
  | some true, _ | _, some true => some true
  | some false, some false => some false
  | _, _ => none

def value : Truth → Value
  | some b => .boolean b
  | none => .null

theorem and_eq_true {a b : Truth} : and a b = some true ↔ a = some true ∧ b = some true := by
  rcases a with _ | _ | _ <;> rcases b with _ | _ | _ <;> simp [and]

theorem or_eq_true {a b : Truth} : or a b = some true ↔ a = some true ∨ b = some true := by
  rcases a with _ | _ | _ <;> rcases b with _ | _ | _ <;> simp [or]

end Truth

/-! ## Databases -/

/-- The rows of tables, and all that the standard leaves open. -/
structure Database where
  rows : Table → List Row
  /-- The truth of values that are neither null nor a truth value. -/
  truth : Value → Truth
  /-- The value of `*`, and of columns of tables that the query does not read. -/
  foreign : Expr → Row → Value
  /-- Where null goes unless the query says. -/
  nullPlace : Direction → NullPlace

/-- The name of a table in a query that reads it. -/
def TableReference.visibleName (s : TableReference) : String := s.label.getD s.table.name

namespace Database

variable (db : Database)

def truthOf : Value → Truth
  | .null => none
  | .boolean b => some b
  | v => db.truth v

def apply : Operator → Value → Value → Truth
  | .equal, a, b => (a.compare? b).map (·.isEq)
  | .less, a, b => (a.compare? b).map (·.isLT)
  | .greater, a, b => (a.compare? b).map (·.isGT)
  | .and, a, b => Truth.and (db.truthOf a) (db.truthOf b)
  | .or, a, b => Truth.or (db.truthOf a) (db.truthOf b)

/-- The value of an expression on a row of the table under a name. -/
def value (table : String) (row : Row) : Expr → Value
  | .column none name => row.value name
  | .column (some q) name =>
    if q = table then row.value name else db.foreign (.column (some q) name) row
  | .bound v => v
  | .truth b => .boolean b
  | .binary left op right => (db.apply op (value table row left) (value table row right)).value
  | .isNull e negated => .boolean ((value table row e).isNull != negated)
  | .everything => db.foreign .everything row

/-- The expression is true of the row, neither false nor unknown. -/
def holds (table : String) (row : Row) (e : Expr) : Bool :=
  db.truthOf (db.value table row e) = some true

/-- The order of two values in a direction, with null where it goes. -/
def arrange (direction : Direction) (nulls : NullPlace) (a b : Value) : Ordering :=
  match a.compare? b, direction, nulls with
  | some o, .ascending, _ => o
  | some o, .descending, _ => o.swap
  | none, _, .first => compare b.isNull a.isNull
  | none, _, .last => compare a.isNull b.isNull

def orderBy (table : String) (t : SortTerm) (a b : Row) : Ordering :=
  let direction := t.direction.getD .ascending
  arrange direction (t.nulls.getD (db.nullPlace direction))
    (db.value table a t.expr) (db.value table b t.expr)

/-- The order of rows by the first sort term on which they differ. -/
def order (table : String) : List SortTerm → Row → Row → Ordering
  | [], _, _ => .eq
  | t :: ts, a, b => (db.orderBy table t a b).then (order table ts a b)

/-- The rows up to a limit, which has to be a bound number. -/
def limited (rows : List Row) : Option Expr → Option (List Row)
  | none => some rows
  | some (.bound (.uint n)) => some (rows.take n.toNat)
  | some _ => none

/-- The answer to a query for whole rows of a table. -/
def run (s : Select) : Option (List Row) :=
  match s.columns, s.source with
  | [.everything], some source =>
    let table := source.visibleName
    let kept := (db.rows source.table).filter fun row => s.filter.all (db.holds table row)
    limited (kept.mergeSort fun a b => (db.order table s.order a b).isLE) s.limit
  | _, _ => none

/-! ## Truth of expressions -/

variable {db} {table : String} {row : Row}

@[simp] theorem truthOf_value (t : Truth) : db.truthOf t.value = t := by
  rcases t with _ | _ <;> rfl

theorem holds_and (e f : Expr) :
    db.holds table row (e.and f) = (db.holds table row e && db.holds table row f) := by
  rw [Bool.eq_iff_iff]
  simp [holds, Expr.and, value, apply, Truth.and_eq_true]

end Database

end Keyset.Sql
