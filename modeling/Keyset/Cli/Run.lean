import Keyset.Cli.Options
import Keyset.Log
import Keyset.Settings
import Keyset.Sql.Render
import Keyset.Sql.Seek

/-!
# Runs of the program

A run turns arguments, variables and files into output lines, log events and an exit status. What
was printed before an error stays printed.
-/
namespace Keyset.Cli
open Json

/-- What a path leads to. -/
inductive Entry where
  | absent
  | directory
  | file (bytes : List UInt8)

/-- All that a run may look at. -/
structure World where
  args : List String
  lookup : String → Option String
  entry : String → Entry

inductive Line where
  | text (s : String)
  /-- A page of a scan. The time it took is filled in by whoever prints it. -/
  | page (number rows : Nat) (last : Bool)
  deriving DecidableEq, Repr

def alignRight (width n : Nat) : String :=
  let ds := Nat.toDigits 10 n
  String.ofList (List.replicate (width - ds.length) ' ' ++ ds)

/-- The line, where a page took `elapsed` milliseconds. -/
def Line.render (elapsed : String) : Line → String
  | .text s => s
  | .page number rows last =>
    "page " ++ alignRight 4 number ++ ": " ++ alignRight 4 rows ++ " rows in " ++ elapsed ++
      " ms" ++ if last then " (last)" else ""

inductive Failure where
  | settingsFile
  | settings (e : SettingsError)
  | order (e : OrderError)
  | cursor (e : CursorError)
  | source (e : SourceError)
  | fetch (e : FetchError)
  | dialect (name : String)

def Failure.message : Failure → String
  | .settingsFile => "Failed to read the settings file"
  | .settings e => "Invalid pagination settings: " ++ e.message
  | .order e => "Invalid ordering: " ++ e.message
  | .cursor e => "Invalid cursor: " ++ e.message
  | .source e => "Failed to open the source: " ++ e.message
  | .fetch e => "Failed to fetch a page: " ++ e.message
  | .dialect name => "Unsupported SQL dialect: " ++ name

/-- What a run has told so far. -/
structure Trace where
  lines : List Line
  events : List Event

/-- A run that may fail; what it has told survives the failure. -/
abbrev Run := ExceptT Failure (StateM Trace)

namespace Run

def print (l : Line) : Run Unit := modify fun t => { t with lines := t.lines ++ [l] }

def tell (es : List Event) : Run Unit := modify fun t => { t with events := t.events ++ es }

def lift {ε α : Type} (f : ε → Failure) (x : Except ε α) : Run α :=
  match x with
  | .ok a => pure a
  | .error e => throw (f e)

end Run

open Run

/-- The name of a file without its last extension. A leading point does not start one. -/
def stem (path : String) : String :=
  match ((Text.split '/' path).filter fun s => s ≠ "" ∧ s ≠ ".").getLast? with
  | none | some ".." => "csv"
  | some name =>
    match (Text.pieces '.' name.toList).reverse with
    | _ :: rest@(_ :: _) =>
      let front := ['.'].intercalate rest.reverse
      String.ofList (if front.isEmpty then name.toList else front)
    | _ => name

def loadSettings (w : World) (path : Option String) : Run Settings :=
  match path with
  | none => lift .settings (Settings.ofEnvironment w.lookup)
  | some path =>
    match w.entry path with
    | .file bytes =>
      match Text.Utf8.text? bytes with
      | some text => lift .settings (Settings.ofJson text)
      | none => throw .settingsFile
    | _ => throw .settingsFile

/-- The first page of an ordering; without a size the policy's default applies. -/
def firstPage (policy : SizePolicy) (order : String) (size : Option Int64) : Run Page := do
  let o ← lift .order (SortOrder.ofText order)
  return ((Page.first o).withPolicy policy).withSize (size.getD 0)

def openTable (w : World) (path : String) : Run CsvTable :=
  match w.entry path with
  | .absent => throw (.source .unreadable)
  | .directory => throw (.source .malformed)
  | .file bytes => do
    let (skipped, table) := CsvTable.read (stem path) bytes
    tell (Event.ofFile skipped table)
    lift .source table

def printPage (w : World) (policy : SizePolicy) (file order : String) (size : Option Int64)
    (token : Option String) (fallback : Bool) : Run Unit := do
  let page ← firstPage policy order size
  let table ← openTable w file
  let reader ← match token with
    | none => lift .cursor (Reader.start page)
    | some token =>
      if fallback then
        tell (Event.ofResume page token)
        lift .cursor (Reader.resume page token .firstPage)
      else lift .cursor (Reader.resume page token .reject)
  tell (Event.ofNext table.table reader)
  let (result, _, _) := reader.next MemoryTable.source table.table
  let fetched ← lift .fetch result
  for row in fetched.rows do
    print (.text row.plain.text)
  if let some c := fetched.next then
    print (.text (Document.record [("next_cursor", .ofString (c.token page.order))]).text)

/-- Prints the pages of a walk, `steps` at most, behind `number` pages with `total` rows. -/
def printWalk (table : MemoryTable) : Nat → Walk → Nat → Nat → Run (Nat × Nat)
  | 0, _, number, total => return (number, total)
  | steps + 1, walk, number, total => do
    if let some r := walk then
      if !r.isExhausted then tell (Event.ofNext table r)
    match walk.next MemoryTable.source table with
    | (none, _, _) => return (number, total)
    | (some result, walk, _) =>
      let p ← lift .fetch result
      print (.page (number + 1) p.rows.length p.reachedEnd)
      printWalk table steps walk (number + 1) (total + p.rows.length)

/-- Every page has a row at least, and then there may be an empty one. -/
def printScan (w : World) (policy : SizePolicy) (file order : String) (size : Option Int64) :
    Run Unit := do
  let page ← firstPage policy order size
  let table ← openTable w file
  tell [.scanning file page.order]
  let reader ← lift .cursor (Reader.start page)
  let (number, total) ← printWalk table.table (table.table.rows.length + 1) (some reader) 0 0
  print (.text s!"{total} rows in {number} pages")

/-- A table name with a schema in front of its first point. -/
def tableOf (name : String) : Sql.Table :=
  match Text.pieces '.' name.toList with
  | schema :: rest@(_ :: _) =>
    ⟨some (String.ofList schema), String.ofList (['.'].intercalate rest)⟩
  | _ => ⟨none, name⟩

def printSql (policy : SizePolicy) (table order : String) (size : Option Int64)
    (token : Option String) (dialect : String) : Run Unit := do
  let some d := Sql.Dialect.ofName? dialect | throw (.dialect dialect)
  let page ← firstPage policy order size
  let position ← match token with
    | none => pure none
    | some token => (lift .cursor (Cursor.ofToken token page.order) : Run _) >>= (pure ∘ some)
  let select ← lift .cursor ((page.after position).select (tableOf table))
  let rendered := select.rendered d
  print (.text rendered.sql)
  print (.text (Document.array (rendered.parameters.map (·.plain))).text)

def perform (w : World) (o : Options) : Run Unit := do
  let policy := (← loadSettings w o.settings).policy
  match o.command with
  | .page file order size token fallback => printPage w policy file order size token fallback
  | .scan file order size => printScan w policy file order size
  | .sql table order size token dialect => printSql policy table order size token dialect

/-- How a run ends. -/
inductive Ending where
  | done
  | usage
  | failed (f : Failure)

def Ending.status : Ending → Nat
  | .done => 0
  | .usage => 2
  | .failed _ => 1

structure Outcome where
  lines : List Line
  events : List Event
  ending : Ending

/-- The outcome of the program. -/
def run (w : World) : Outcome :=
  match Options.read w.args with
  | .error .usage => ⟨[], [], .usage⟩
  | .error .version => ⟨[.text versionLine], [], .done⟩
  | .error (.help topic) => ⟨topic.lines.map .text, [], .done⟩
  | .ok o =>
    match (perform w o).run ⟨[], []⟩ with
    | (.ok _, t) => ⟨t.lines, t.events, .done⟩
    | (.error f, t) => ⟨t.lines, t.events, .failed f⟩

end Keyset.Cli
