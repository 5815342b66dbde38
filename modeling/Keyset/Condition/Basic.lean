import Keyset.Row
import Keyset.Value.Compare

/-!
# Conditions on rows

A condition is true or false of a row. A comparison with null, on either side, is false. The
constructors `all` and `any` join conditions and simplify; what they build holds of the same rows
as the plain conjunction and disjunction.
-/
namespace Keyset

inductive Comparison where
  | equal
  | greater
  | less
  deriving DecidableEq, Repr

def Comparison.accepts : Comparison → Ordering → Bool
  | .equal, o => o.isEq
  | .greater, o => o.isGT
  | .less, o => o.isLT

inductive Condition where
  | never
  | compare (column : String) (op : Comparison) (value : Value)
  /-- The column is null, or is not null if `negated`. -/
  | isNull (column : String) (negated : Bool)
  | and (parts : List Condition)
  | or (parts : List Condition)

namespace Condition

mutual

def holds (row : Row) : Condition → Bool
  | .never => false
  | .compare column op value =>
    let cell := row.value column
    !cell.isNull && !value.isNull && op.accepts (cell.order value)
  | .isNull column negated => (row.value column).isNull != negated
  | .and parts => allHold row parts
  | .or parts => anyHolds row parts

def allHold (row : Row) : List Condition → Bool
  | [] => true
  | p :: ps => p.holds row && allHold row ps

def anyHolds (row : Row) : List Condition → Bool
  | [] => false
  | p :: ps => p.holds row || anyHolds row ps

end

/-- The parts of a conjunction with those of inner conjunctions in place, unless one part is
`never`. -/
def conjuncts? : List Condition → Option (List Condition)
  | [] => some []
  | .never :: _ => none
  | .and inner :: ps => (conjuncts? ps).map (inner ++ ·)
  | p :: ps => (conjuncts? ps).map (p :: ·)

/-- The conjunction. -/
def all (parts : List Condition) : Condition :=
  match conjuncts? parts with
  | none => .never
  | some [p] => p
  | some ps => .and ps

/-- The parts of a disjunction with those of inner disjunctions in place and without `never`. -/
def disjuncts : List Condition → List Condition
  | [] => []
  | .never :: ps => disjuncts ps
  | .or inner :: ps => inner ++ disjuncts ps
  | p :: ps => p :: disjuncts ps

/-- The disjunction. -/
def any (parts : List Condition) : Condition :=
  match disjuncts parts with
  | [] => .never
  | [p] => p
  | ps => .or ps

end Condition

end Keyset
