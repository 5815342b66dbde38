import Keyset.Source.Memory

/-!
# Tables that fail on demand

A table in memory whose storage can be switched off. It counts the requests it gets, also those it
cannot answer.
-/
namespace Keyset

structure FlakyTable where
  table : MemoryTable
  calls : Nat
  failing : Bool
  deriving DecidableEq

namespace FlakyTable

def ofTable (t : MemoryTable) : FlakyTable := ⟨t, 0, false⟩

/-- What a table answers that is switched off. -/
def outage : SourceError := .refused "storage unavailable"

def source : Source FlakyTable := fun t r =>
  (if t.failing then .error outage else .ok (t.table.fetch r), { t with calls := t.calls + 1 })

end FlakyTable

end Keyset
