import Keyset.Number.Integer
import Keyset.Value.Basic

/-!
# The order of values

All values stand in one order. Kinds come in groups: booleans, numbers, strings, UUIDs, moments,
and null last. Numbers of all kinds compare by exact value, an integer before a floating point
number that equals it. Dates and timestamps compare in time, where a date is its midnight in UTC
and comes before the equal timestamp.
-/
namespace Keyset.Value

/-- What the order looks at. Signed and unsigned integers are one kind here, of 128 bits. -/
inductive SortKey where
  | boolean (b : Bool)
  | integer (n : BitVec 128)
  | float (f : Binary64)
  | string (s : String)
  | uuid (n : Nat)
  | moment (seconds : Int) (nanos : Nat) (isTimestamp : Bool)
  | null

def sortKey : Value → SortKey
  | .int n => .integer (n.toBitVec.signExtend 128)
  | .uint n => .integer (n.toBitVec.setWidth 128)
  | .float f => .float f
  | .string s => .string s
  | .boolean b => .boolean b
  | .uuid u => .uuid u.value.toNat
  | .date d => .moment (d.day * 86400) 0 false
  | .timestamp t => .moment t.seconds t.nanos true
  | .null => .null

def SortKey.group : SortKey → Nat
  | .boolean _ => 0
  | .integer _ => 1
  | .float _ => 1
  | .string _ => 2
  | .uuid _ => 3
  | .moment .. => 4
  | .null => 5

def SortKey.order : SortKey → SortKey → Ordering
  | .boolean a, .boolean b => compare a b
  | .integer m, .integer n => compare m.toInt n.toInt
  | .integer m, .float g => g.compareInteger m
  | .float f, .integer n => (f.compareInteger n).swap
  | .float f, .float g => compare f.rank g.rank
  | .string s, .string t => compare s t
  | .uuid m, .uuid n => compare m n
  | .moment s m a, .moment t n b => (compare s t).then ((compare m n).then (compare a b))
  | a, b => compare a.group b.group

/-- The order of all values. -/
def order (a b : Value) : Ordering := a.sortKey.order b.sortKey

/-- The comparison of a query, which has no answer if a side is null. -/
def compare? (a b : Value) : Option Ordering :=
  if a.isNull ∨ b.isNull then none else some (a.order b)

def equal (a b : Value) : Bool := a.compare? b = some .eq

/-- The values in order; equal ones keep theirs. -/
def sort (values : List Value) : List Value := values.mergeSort fun a b => (a.order b).isLE

end Keyset.Value
