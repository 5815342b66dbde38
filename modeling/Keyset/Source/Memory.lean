import Keyset.Source.Request

/-!
# Tables in memory

A table holds rows in the order of their insertion and answers a request from what it holds at
that moment: the rows that satisfy the condition, in order, up to the limit.
-/
namespace Keyset

structure MemoryTable where
  entity : String
  rows : List Row
  deriving DecidableEq

namespace MemoryTable

def insert (t : MemoryTable) (row : Row) : MemoryTable := { t with rows := t.rows ++ [row] }

def removeWhere (t : MemoryTable) (gone : Row → Bool) : MemoryTable :=
  { t with rows := t.rows.filter fun row => !gone row }

/-- The table without the rows that satisfy the condition. -/
def remove (t : MemoryTable) (c : Condition) : MemoryTable := t.removeWhere fun row => c.holds row

/-- The rows a request is about, whatever its limit. -/
def matching (t : MemoryTable) (r : Request) : List Row :=
  t.rows.filter fun row => r.condition.all (·.holds row)

def fetch (t : MemoryTable) (r : Request) : List Row :=
  (r.order.sort (t.matching r)).take r.limit.toNat

/-- The table as a source; answering does not change it. -/
def source : Source MemoryTable := fun t r => (.ok (t.fetch r), t)

end MemoryTable

end Keyset
