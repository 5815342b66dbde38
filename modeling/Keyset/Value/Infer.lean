import Keyset.Calendar.Reading
import Keyset.Number.Rounding
import Keyset.Number.Whole
import Keyset.Text.Folded
import Keyset.Value.Basic

/-!
# Values from raw text

The kind of a cell without a declared type. Blank text is null; then integers, finite floating
point numbers, booleans, RFC 3339 timestamps and dates are tried in this order. All else is text,
without the blanks around it.
-/
namespace Keyset.Value
open Text Number

def boolean? (cs : List Char) : Option Bool :=
  match (cs.map Char.toLower) with
  | ['t', 'r', 'u', 'e'] => some true
  | ['f', 'a', 'l', 's', 'e'] => some false
  | _ => none

/-- The value of trimmed text in the first form that accepts it. -/
def recognised? (cs : List Char) : Option Value :=
  (int64? cs).map Value.int
    <|> (uint64? cs).map Value.uint
    <|> (Binary64.read? cs).map Value.float
    <|> (boolean? cs).map Value.boolean
    <|> (Calendar.strictTimestamp? cs).map Value.timestamp
    <|> (Calendar.date? cs).map Value.date

def infer (raw : String) : Value :=
  let cs := trim raw.toList
  if cs.isEmpty then .null else (recognised? cs).getD (.string (String.ofList cs))

end Keyset.Value
