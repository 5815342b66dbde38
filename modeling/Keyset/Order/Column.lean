import Keyset.Text.Blank
import Keyset.Text.Folded
import Keyset.Value.Compare

/-!
# Sort columns

One column of an ordering: its direction, where null goes, whether it may be null and whether its
values are distinct.
-/
namespace Keyset
open Text

inductive Direction where
  | ascending
  | descending
  deriving DecidableEq, Repr

inductive NullPlace where
  | first
  | last
  deriving DecidableEq, Repr

structure SortColumn where
  name : String
  direction : Direction
  /-- The column may hold null. -/
  nullable : Bool
  /-- No two rows share a value, so that columns behind this one do not matter. -/
  distinct : Bool
  /-- Where null goes, if the direction does not decide it. -/
  nulls : Option NullPlace
  deriving DecidableEq, Repr

namespace SortColumn

/-- An ascending column under a trimmed name. -/
def named (name : String) : SortColumn := ⟨strip name, .ascending, false, false, none⟩

/-- Where null goes in the output. Unless stated, null counts as above every value. -/
def nullPlace (c : SortColumn) : NullPlace :=
  c.nulls.getD (match c.direction with
    | .ascending => .last
    | .descending => .first)

/-- Whether a name means this column: blanks around it and the case of letters are ignored. -/
def answersTo (c : SortColumn) (name : String) : Bool := sameFolded c.name (strip name)

/-- The order of two values of the column in the output. -/
def order (c : SortColumn) (a b : Value) : Ordering :=
  match a.isNull, b.isNull with
  | true, true => .eq
  | true, false => match c.nullPlace with
    | .first => .lt
    | .last => .gt
  | false, true => match c.nullPlace with
    | .first => .gt
    | .last => .lt
  | false, false => match c.direction with
    | .ascending => a.order b
    | .descending => (a.order b).swap

/-- Values of the column in the order of the output; equal ones keep theirs. -/
def sort (c : SortColumn) (values : List Value) : List Value :=
  values.mergeSort fun a b => (c.order a b).isLE

end SortColumn

end Keyset
