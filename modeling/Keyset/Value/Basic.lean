import Keyset.Calendar.Timestamp
import Keyset.Number.Binary64
import Keyset.Uuid

/-!
# Values

One cell of a row, or one part of a position in an ordering.
-/
namespace Keyset

inductive Value where
  | int (n : Int64)
  | uint (n : UInt64)
  | float (f : Binary64)
  | string (s : String)
  | boolean (b : Bool)
  | uuid (u : Uuid)
  | date (d : Date)
  | timestamp (t : Timestamp)
  | null
  deriving DecidableEq

namespace Value

def isNull : Value → Bool
  | .null => true
  | _ => false

theorem isNull_iff {v : Value} : v.isNull = true ↔ v = .null := by
  cases v <;> simp [isNull]

/-- Same kind and same content, where floating point numbers count as numbers: the two zeros are
alike, and a NaN is not even like itself. -/
def alike : Value → Value → Bool
  | .float f, .float g => f.sameNumber g
  | a, b => a = b

end Value

end Keyset
