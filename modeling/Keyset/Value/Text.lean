import Keyset.Calendar.Reading
import Keyset.Json.Read
import Keyset.Number.Shortest
import Keyset.Value.Basic

/-!
# Written values

Three forms: the text shown to people, which quotes as SQL does; the plain JSON of a cell, which
drops the kind; and the tagged JSON, which keeps it and is read back by `ofDocument?`.
-/
namespace Keyset.Value
open Json

/-- A shown number never has an exponent and needs no point. -/
def shownLayout : NumberLayout := ⟨none, none, false, false, .up⟩

/-- A number in JSON always has a point or an exponent; an exponent is used before the fifth
decimal place and from `10 ^ 16` on. -/
def jsonLayout : NumberLayout := ⟨some (-5), some 15, true, true, .even⟩

def showFloat (f : Binary64) : List Char :=
  if f.isNaN then ['N', 'a', 'N']
  else if f.isFinite then shownLayout.write f
  else (if f.negative then ['-'] else []) ++ ['i', 'n', 'f']

/-- Text between single quotes, with quotes inside doubled. -/
def quoted (cs : List Char) : List Char :=
  '\'' :: cs.flatMap (fun c => if c = '\'' then ['\'', '\''] else [c]) ++ ['\'']

def shown : Value → List Char
  | .int n => (toString n.toInt).toList
  | .uint n => (toString n.toNat).toList
  | .float f => showFloat f
  | .string s => quoted s.toList
  | .boolean b => if b then "true".toList else "false".toList
  | .uuid u => u.text
  | .date d => quoted d.text
  | .timestamp t => quoted (t.text ' ' " UTC")
  | .null => "NULL".toList

def display (v : Value) : String := String.ofList v.shown

/-- JSON has no spelling for NaN and the infinities. -/
def floatDocument (f : Binary64) : Document :=
  if f.isFinite then .number (jsonLayout.write f) else .null

/-- The plain JSON of a cell. -/
def plain : Value → Document
  | .int n => .ofInt n.toInt
  | .uint n => .ofNat n.toNat
  | .float f => floatDocument f
  | .string s => .ofString s
  | .boolean b => .bool b
  | .uuid u => .ofChars u.text
  | .date d => .ofChars d.text
  | .timestamp t => .ofChars (t.text 'T' "+00:00")
  | .null => .null

/-- The tagged JSON: an object of the kind and the content. -/
def document : Value → Document
  | .int n => .record [("Int", .ofInt n.toInt)]
  | .uint n => .record [("Uint", .ofNat n.toNat)]
  | .float f => .record [("Float", floatDocument f)]
  | .string s => .record [("String", .ofString s)]
  | .boolean b => .record [("Boolean", .bool b)]
  | .uuid u => .record [("Uuid", .ofChars u.text)]
  | .date d => .record [("Date", .ofChars d.text)]
  | .timestamp t => .record [("Timestamp", .ofChars (t.text 'T' "Z"))]
  | .null => .ofString "Null"

def ofDocument? (d : Document) : Option Value := do
  let (kind, content) ← d.variant?
  if kind = "Null" then if Document.isUnit content then some .null else none
  else
    let content ← content
    let text := content.string?.map String.toList
    match kind with
    | "Int" => content.int64?.map .int
    | "Uint" => content.uint64?.map .uint
    | "Float" => content.binary64?.map .float
    | "String" => content.string?.map .string
    | "Boolean" => content.bool?.map .boolean
    | "Uuid" => (text.bind Uuid.read?).map .uuid
    | "Date" => (text.bind Calendar.relaxedDate?).map .date
    | "Timestamp" => (text.bind Calendar.relaxedTimestamp?).map .timestamp
    | _ => none

end Keyset.Value
