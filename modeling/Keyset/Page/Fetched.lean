import Keyset.Page.Basic
import Keyset.Row

/-!
# Fetched pages

The rows of one page, where they start and where the next page starts. A fetched page can be
written as JSON and read back.
-/
namespace Keyset

structure FetchedPage where
  rows : List Row
  /-- The position the page started after. -/
  position : Option Cursor
  /-- The position the next page starts after, if there is a next page. -/
  next : Option Cursor
  reachedEnd : Bool
  rowCount : UInt64
  /-- The time the fetch took; whoever holds a clock sets it. -/
  milliseconds : BitVec 128

namespace FetchedPage

/-- The empty page of a listing that has ended. -/
def exhausted (position : Option Cursor) : FetchedPage := ⟨[], position, none, true, 0, 0⟩

def isEmpty (p : FetchedPage) : Bool := p.rows.isEmpty

end FetchedPage

open Json

namespace SizePolicy

def document (p : SizePolicy) : Document :=
  .record [("default", .ofNat p.default.toNat), ("maximum", .ofNat p.maximum.toNat)]

/-- The policy as it is written, which need not be one that `of` gives. -/
def ofDocument? (d : Document) : Option SizePolicy := do
  match ← d.record? ["default", "maximum"] with
  | [default, maximum] =>
    return ⟨← Document.field? Document.uint64? default, ← Document.field? Document.uint64? maximum⟩
  | _ => none

end SizePolicy

namespace FetchedPage

def document (p : FetchedPage) : Document :=
  .record [("rows", .array (p.rows.map Row.document)),
    ("lower_bounds", .ofOption Cursor.document p.position),
    ("next_cursor", .ofOption Cursor.document p.next),
    ("reached_end", .bool p.reachedEnd),
    ("row_count", .ofNat p.rowCount.toNat),
    ("took_ms", .ofNat p.milliseconds.toNat)]

def ofDocument? (d : Document) : Option FetchedPage := do
  let names := ["rows", "lower_bounds", "next_cursor", "reached_end", "row_count", "took_ms"]
  match ← d.record? names with
  | [rows, position, next, reachedEnd, rowCount, milliseconds] =>
    return ⟨← Document.field? (Document.list? Row.ofDocument?) rows,
      ← Document.optionField? Cursor.ofDocument? position,
      ← Document.optionField? Cursor.ofDocument? next,
      ← Document.field? Document.bool? reachedEnd,
      ← Document.field? Document.uint64? rowCount,
      ← Document.field? (fun d => (d.below? (Nat.pow 2 128)).map (BitVec.ofNat 128)) milliseconds⟩
  | _ => none

end FetchedPage

end Keyset
