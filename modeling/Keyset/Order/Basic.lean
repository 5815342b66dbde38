import Keyset.Order.Column
import Keyset.Row

/-!
# Orderings

A list of sort columns that orders all rows: no two columns of one name, and a distinct column to
break ties. The columns up to the first distinct one are the key; the others do not matter.
-/
namespace Keyset

/-- Why columns make no ordering, or a text none. -/
inductive OrderError where
  | noColumns
  | duplicate (name : String)
  | noDistinct
  | emptyName
  | missingName (part : String)
  | unknownFlag (flag column : String)
  deriving DecidableEq, Repr

namespace OrderError

def message : OrderError → String
  | .noColumns => "ordering has no columns"
  | .duplicate name => s!"column '{name}' appears more than once in the ordering"
  | .noDistinct => "ordering has no distinct column to break ties"
  | .emptyName => "invalid order syntax: empty column name"
  | .missingName part => s!"invalid order syntax: missing column name in '{part}'"
  | .unknownFlag flag column =>
    s!"invalid order syntax: unknown flag '{flag}' for column '{column}'"

end OrderError

namespace SortOrder

/-- The first column, after `earlier` ones, with no name or a name that is taken. -/
def nameDefect? (earlier : List SortColumn) : List SortColumn → Option OrderError
  | [] => none
  | c :: cs =>
    if c.name.isEmpty then some .emptyName
    else if earlier.any (·.answersTo c.name) then some (.duplicate c.name)
    else nameDefect? (earlier ++ [c]) cs

/-- Why columns do not order all rows. -/
def defect? (columns : List SortColumn) : Option OrderError :=
  if columns.isEmpty then some .noColumns
  else (nameDefect? [] columns).or
    (if columns.any (·.distinct) then none else some .noDistinct)

end SortOrder

structure SortOrder where
  columns : List SortColumn
  sound : SortOrder.defect? columns = none

namespace SortOrder

theorem ext_columns {a b : SortOrder} (h : a.columns = b.columns) : a = b := by
  cases a; cases b; simp_all

instance : DecidableEq SortOrder := fun a b =>
  if h : a.columns = b.columns then isTrue (ext_columns h)
  else isFalse (fun he => h (congrArg columns he))

def ofColumns (columns : List SortColumn) : Except OrderError SortOrder :=
  match h : defect? columns with
  | none => .ok ⟨columns, h⟩
  | some e => .error e

/-- The columns up to and including the first distinct one. -/
def upToDistinct : List SortColumn → List SortColumn
  | [] => []
  | c :: cs => if c.distinct then [c] else c :: upToDistinct cs

/-- The columns that decide the order. -/
def key (o : SortOrder) : List SortColumn := upToDistinct o.columns

def column? (o : SortOrder) (name : String) : Option SortColumn :=
  o.columns.find? (·.answersTo name)

/-- The place of a name among the key columns. -/
def keyPlace? (o : SortOrder) (name : String) : Option Nat :=
  o.key.findIdx? (·.answersTo name)

/-- Rows by the first column on which they differ. -/
def compareBy : List SortColumn → Row → Row → Ordering
  | [], _, _ => .eq
  | c :: cs, a, b =>
    match c.order (a.value c.name) (b.value c.name) with
    | .eq => compareBy cs a b
    | o => o

/-- The order of rows. -/
def compareRows (o : SortOrder) (a b : Row) : Ordering := compareBy o.key a b

/-- Items in the order of their rows; items whose rows compare equal keep theirs. -/
def sortOn (o : SortOrder) (row : α → Row) (items : List α) : List α :=
  items.mergeSort fun a b => (o.compareRows (row a) (row b)).isLE

/-- The rows in order; rows that compare equal keep theirs. -/
def sort (o : SortOrder) (rows : List Row) : List Row := o.sortOn id rows

end SortOrder

end Keyset
