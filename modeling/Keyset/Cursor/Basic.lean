import Keyset.Order.Basic
import Keyset.Text.Base64Url

/-!
# Cursors

A cursor is a position in an ordering: values for some leading key columns. It stands behind the
rows that have these values, or would. Names are kept trimmed and in lower case by all that makes
cursors here; a cursor that was read keeps its names as they were written.
-/
namespace Keyset
open Text

/-- Why a token holds no cursor, or a cursor does not fit an ordering. -/
inductive CursorError where
  | empty
  | tooLong (size : Nat)
  | encoding (e : Base64Url.Error)
  | payload
  | unsupportedVersion (version : Nat)
  | orderMismatch
  | unknownColumn (name : String)
  | gap (column missing : String)
  | nullNotAllowed (column : String)
  | missingRowValue (column : String)
  deriving DecidableEq, Repr

namespace CursorError

/-- The most bytes a token may have. -/
def sizeLimit : Nat := 8192

def message : CursorError → String
  | .empty => "cursor token is empty"
  | .tooLong size => s!"cursor token exceeds max length: {size} chars (max {sizeLimit})"
  | .encoding e => s!"cursor token is not valid base64: {e.message}"
  | .payload => "cursor token payload is invalid"
  | .unsupportedVersion version => s!"unsupported cursor token version {version}"
  | .orderMismatch => "cursor was produced for a different ordering"
  | .unknownColumn name =>
    s!"cursor references column '{name}' which is not part of the ordering"
  | .gap column missing =>
    s!"cursor sets column '{column}' but skips preceding column '{missing}'"
  | .nullNotAllowed column => s!"cursor holds NULL for non-nullable column '{column}'"
  | .missingRowValue column => s!"row has no value for ordering column '{column}'"

end CursorError

structure Cursor where
  values : Dictionary Value
  deriving DecidableEq

namespace Cursor

/-- The name under which a column's value is kept. -/
def keyName (name : String) : String := fold (strip name)

def empty : Cursor := ⟨.empty⟩

def isEmpty (c : Cursor) : Bool := c.values.isEmpty

def size (c : Cursor) : Nat := c.values.size

/-- The cursor of names and values; the last value of a name counts. -/
def ofPairs (pairs : List (String × Value)) : Cursor :=
  ⟨.ofList (pairs.map fun (name, value) => (keyName name, value))⟩

def find? (c : Cursor) (name : String) : Option Value := c.values.find? (keyName name)

/-- Whether the cursor holds a value for a column. -/
def sets (c : Cursor) (column : SortColumn) : Bool := (c.find? column.name).isSome

def ofColumns (row : Row) : List SortColumn → Dictionary Value → Except CursorError Cursor
  | [], values => .ok ⟨values⟩
  | c :: cs, values =>
    let value := row.value c.name
    if value.isNull ∧ !c.nullable then .error (.missingRowValue c.name)
    else ofColumns row cs (values.insert (keyName c.name) value)

/-- The position of a row. Null is a position only in nullable columns. -/
def ofRow (o : SortOrder) (row : Row) : Except CursorError Cursor := ofColumns row o.key .empty

/-- The leading columns that the cursor sets. -/
def leading (c : Cursor) (columns : List SortColumn) : List SortColumn :=
  columns.takeWhile c.sets

/-- How many key columns the cursor sets. It has to set leading ones, nothing else, and null only
where null is allowed. -/
def fit (c : Cursor) (o : SortOrder) : Except CursorError Nat :=
  match c.values.names.find? fun name => (o.keyPlace? name).isNone with
  | some name => .error (.unknownColumn name)
  | none =>
    match o.key.dropWhile c.sets with
    | missing :: rest =>
      match rest.find? c.sets with
      | some column => .error (.gap column.name missing.name)
      | none => nulls
    | [] => nulls
where
  nulls : Except CursorError Nat :=
    let columns := c.leading o.key
    match columns.find? fun column => !column.nullable && c.find? column.name = some .null with
    | some column => .error (.nullNotAllowed column.name)
    | none => .ok columns.length

/-- Same names and alike values. -/
def alike (c d : Cursor) : Bool :=
  c.values.names == d.values.names &&
    (c.values.entries.zip d.values.entries).all fun (a, b) => a.2.alike b.2

end Cursor

open Json

namespace Cursor

def document (c : Cursor) : Document :=
  .record (c.values.entries.map fun (name, value) => (name, value.document))

/-- Names are kept as they are spelled. -/
def ofDocument? (d : Document) : Option Cursor :=
  (d.pairs? Value.ofDocument?).map fun pairs => ⟨.ofList pairs⟩

end Cursor

end Keyset
