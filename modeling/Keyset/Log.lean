import Keyset.Order.Text
import Keyset.Reader.Walk
import Keyset.Source.CsvTable
import Keyset.Text.Quoted

/-!
# The log

What is worth telling about a run, and how a log line tells it: the level, who speaks, the message
and named values.
-/
namespace Keyset
open Text

inductive Level where
  | error
  | warn
  | info
  | debug
  deriving DecidableEq, Repr

namespace Level

def rank : Level → Nat
  | .error => 0
  | .warn => 1
  | .info => 2
  | .debug => 3

def text : Level → String
  | .error => "ERROR"
  | .warn => "WARN"
  | .info => "INFO"
  | .debug => "DEBUG"

def ofName? : String → Option Level
  | "error" => some .error
  | "warn" => some .warn
  | "info" => some .info
  | "debug" => some .debug
  | _ => none

end Level

inductive Event where
  | skipped (r : SkippedRecord)
  | loaded (count : Nat) (entity : String)
  /-- A table in memory has answered; `scanned` rows satisfied the condition. -/
  | fetched (entity : String) (scanned returned : Nat)
  | fetching (position : Option Cursor) (page : Nat) (size : UInt64)
  | failed (e : SourceError)
  | ended (rows pages : Nat)
  | idle
  | unusableToken (e : CursorError)
  | scanning (file : String) (order : SortOrder)

/-- Numbers of the log have a point, and an exponent before the fourth decimal place and from
`10 ^ 16` on. -/
def logLayout : NumberLayout := ⟨some (-4), some 15, true, false, .up⟩

/-- A value with its kind. -/
def Value.logText : Value → String
  | .int n => s!"Int({n.toInt})"
  | .uint n => s!"Uint({n.toNat})"
  | .float f =>
    "Float(" ++ String.ofList (if f.isFinite then logLayout.write f else showFloat f) ++ ")"
  | .string s => "String(" ++ Text.quoted s ++ ")"
  | .boolean b => s!"Boolean({b})"
  | .uuid u => "Uuid(" ++ String.ofList u.text ++ ")"
  | .date d => "Date(" ++ String.ofList d.text ++ ")"
  | .timestamp t => "Timestamp(" ++ String.ofList (t.text 'T' "Z") ++ ")"
  | .null => "Null"

def Cursor.logText (c : Cursor) : String :=
  "Cursor \x7b values: \x7b" ++
    ", ".intercalate (c.values.entries.map fun (name, value) =>
      Text.quoted name ++ ": " ++ value.logText) ++
    "\x7d \x7d"

/-- A position, where there may be none. -/
def positionText : Option Cursor → String
  | some c => "Some(" ++ c.logText ++ ")"
  | none => "None"

namespace Event

def level : Event → Level
  | .skipped _ | .failed _ | .unusableToken _ => .warn
  | .loaded .. | .ended .. | .scanning .. => .info
  | .fetched .. | .fetching .. | .idle => .debug

/-- Who speaks. -/
def speaker : Event → String
  | .skipped _ | .loaded .. => "connectors::file::csv::source"
  | .fetched .. => "connectors::memory"
  | .scanning .. => "keyset"
  | _ => "engine_core::reader"

def message : Event → String
  | .skipped r => s!"Skipping record {r.number}: expected {r.expected} fields, found {r.found}"
  | .loaded count entity => s!"Loaded {count} rows from '{entity}'"
  | .fetched .. => "Memory source fetch"
  | .fetching position _ _ => "Fetching page after " ++ positionText position
  | .failed e => "Page fetch failed: " ++ e.message
  | .ended rows _ => s!"Reached the end of the listing ({rows} rows on the last page)"
  | .idle => "Reader exhausted, not contacting the source"
  | .unusableToken e =>
    "Ignoring unusable cursor token, starting from the first page: " ++ e.message
  | .scanning file order => "Scanning " ++ file ++ " ordered by " ++ order.text

def values : Event → List (String × String)
  | .fetched entity scanned returned =>
    [("entity", entity), ("scanned", toString scanned), ("returned", toString returned)]
  | .fetching _ page size => [("page", toString page), ("per_page", toString size.toNat)]
  | .ended _ pages => [("pages", toString pages)]
  | _ => []

/-- The line without the time in front. -/
def line (e : Event) : String :=
  e.level.text ++ " " ++ e.speaker ++ ": " ++ visible e.message ++
    String.join (e.values.map fun (name, value) => " " ++ name ++ "=" ++ value)

/-- The lines that a log of some level has. -/
def lines (level : Level) (events : List Event) : List String :=
  (events.filter fun e => e.level.rank ≤ level.rank).map line

/-- What is told about reading a file. -/
def ofFile (skipped : List SkippedRecord) (result : Except SourceError CsvTable) : List Event :=
  skipped.map .skipped ++
    match result with
    | .ok t => [.loaded t.table.rows.length t.table.entity]
    | .error _ => []

/-- What is told about opening a reader from a token. -/
def ofResume (page : Page) (token : String) : List Event :=
  match Cursor.ofToken token page.order with
  | .ok _ => []
  | .error e => [.unusableToken e]

/-- What a reader tells about an answer. -/
def ofAnswer (r : Reader) : Answer → List Event
  | .error e => [.failed e]
  | .ok rows =>
    match r.take rows with
    | .ok (p, r) => if p.reachedEnd then [.ended p.rows.length r.pagesRead] else []
    | .error _ => []

/-- What is told about the next page of a table in memory. -/
def ofNext (t : MemoryTable) (r : Reader) : List Event :=
  if r.isExhausted then [.idle]
  else match r.request with
    | .error _ => []
    | .ok q =>
      let rows := t.fetch q
      [.fetching r.position (r.pagesRead + 1) r.page.size,
        .fetched t.entity (t.matching q).length rows.length] ++ ofAnswer r (.ok rows)

end Event

end Keyset
