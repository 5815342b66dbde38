import Keyset.Cursor.Token
import Keyset.Page.Fetched
import Keyset.Source.Request

/-!
# Readers

A reader walks a source page by page. Each fetch asks for one row more than the page has, and the
extra row only tells whether another page follows. The position moves to the last row returned.
A failed fetch leaves the reader as it was; so does one that is dropped, except that its state
says a fetch has begun. After the last page the source is left alone.
-/
namespace Keyset

inductive ReaderState where
  /-- No page fetched yet. -/
  | ready
  /-- A fetch has begun. -/
  | fetching
  /-- A page was returned and more may follow. -/
  | hasPage
  /-- The last page was returned. -/
  | exhausted
  deriving DecidableEq, Repr

inductive FetchError where
  /-- The source failed while the page after the position was fetched. -/
  | source (position : Option Cursor) (e : SourceError)
  | invalidRow (column : String)
  | cursor (e : CursorError)
  deriving DecidableEq

def FetchError.message : FetchError → String
  | .source _ e => e.message
  | .invalidRow column => s!"Row is missing a value for ordering column '{column}'"
  | .cursor e => e.message

/-- What happens with a token that cannot be used. -/
inductive Fallback where
  | reject
  | firstPage
  deriving DecidableEq, Repr

structure Reader where
  /-- The page that is fetched next. -/
  page : Page
  state : ReaderState
  pagesRead : Nat
  deriving DecidableEq

namespace Reader

/-- A reader from a page on, whose position has to fit its ordering. -/
def start (page : Page) : Except CursorError Reader := do
  if let some c := page.position then
    let _ ← c.fit page.order
  return ⟨page, .ready, 0⟩

/-- A reader from the position of a token on. -/
def resume (page : Page) (token : String) (fallback : Fallback) : Except CursorError Reader :=
  match Cursor.ofToken token page.order, fallback with
  | .ok c, _ => start (page.after (some c))
  | .error _, .firstPage => start (page.after none)
  | .error e, .reject => .error e

/-- The position behind the last row returned. -/
def position (r : Reader) : Option Cursor := r.page.position

def isExhausted (r : Reader) : Bool := r.state = .exhausted

/-- The token of the position. -/
def token? (r : Reader) : Option String := r.position.map (·.token r.page.order)

/-- The request for the next page. -/
def request (r : Reader) : Except CursorError Request := do
  let condition ← r.page.lowerBound
  return ⟨r.page.order, condition, r.page.limit⟩

/-- The reader of which a fetch has been dropped half way. -/
def dropped (r : Reader) : Reader := { r with state := .fetching }

/-- The position of the last row, if there are rows. -/
def lastPosition (o : SortOrder) (rows : List Row) : Except FetchError (Option Cursor) :=
  match rows.getLast? with
  | none => .ok none
  | some row =>
    match Cursor.ofRow o row with
    | .ok c => .ok (some c)
    | .error (.missingRowValue column) => .error (.invalidRow column)
    | .error e => .error (.cursor e)

/-- The page made of the rows a source has answered with, and the reader behind it. -/
def take (r : Reader) (answered : List Row) : Except FetchError (FetchedPage × Reader) := do
  let size := r.page.size.toNat
  let rows := answered.take size
  let more := size < answered.length
  let last ← lastPosition r.page.order rows
  let page := if last.isSome then r.page.after last else r.page
  return ({ rows
            position := r.position
            next := if more then last else none
            reachedEnd := !more
            rowCount := UInt64.ofNat rows.length
            milliseconds := 0 },
    ⟨page, if more then .hasPage else .exhausted, r.pagesRead + 1⟩)

/-- A call that waits for the source. -/
structure Pending where
  /-- The reader meanwhile. -/
  reader : Reader
  /-- The state it goes back to if the fetch fails. -/
  previous : ReaderState
  request : Request

/-- A call up to where it returns or waits for the source. -/
inductive Call where
  | returned (result : Except FetchError FetchedPage) (reader : Reader)
  | waiting (fetch : Pending)

def call (r : Reader) : Call :=
  if r.isExhausted then .returned (.ok (.exhausted r.position)) r
  else
    let begun := { r with state := .fetching }
    match begun.request with
    | .error e => .returned (.error (.cursor e)) { begun with state := r.state }
    | .ok q => .waiting ⟨begun, r.state, q⟩

/-- The end of a call that waited. -/
def Pending.settle (p : Pending) : Answer → Except FetchError FetchedPage × Reader
  | .error e => (.error (.source p.reader.position e), { p.reader with state := p.previous })
  | .ok rows =>
    match p.reader.take rows with
    | .ok (fetched, r) => (.ok fetched, r)
    | .error e => (.error e, { p.reader with state := p.previous })

/-- The next page of a source. -/
def next {σ : Type} (source : Source σ) (r : Reader) (s : σ) :
    Except FetchError FetchedPage × Reader × σ :=
  match r.call with
  | .returned result r => (result, r, s)
  | .waiting p =>
    let (answer, s) := source s p.request
    let (result, r) := p.settle answer
    (result, r, s)

end Reader

end Keyset
