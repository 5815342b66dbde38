import Keyset.Cursor.Basic

/-!
# Pages

A page names what one fetch is to return: the ordering, the position it starts after, and how many
rows are wanted. A policy turns the wanted number into the number of rows returned.
-/
namespace Keyset

/-- How many rows a page may have, and how many if none is asked for. -/
structure SizePolicy where
  default : UInt64
  maximum : UInt64
  deriving DecidableEq, Repr

namespace SizePolicy

/-- Twenty rows, at most a hundred. -/
def standard : SizePolicy := ⟨20, 100⟩

/-- A policy with `1 ≤ default ≤ maximum`, whatever is asked for. -/
def of (default maximum : UInt64) : SizePolicy :=
  let maximum := max maximum 1
  ⟨min (max default 1) maximum, maximum⟩

/-- The size for a requested one. A size that is not positive asks for the default. -/
def clamp (p : SizePolicy) (requested : Int64) : UInt64 :=
  if requested ≤ 0 then p.default else min requested.toUInt64 p.maximum

end SizePolicy

structure Page where
  order : SortOrder
  /-- The position the page starts after; a cursor that sets nothing is no position. -/
  position : Option Cursor
  requested : Int64
  policy : SizePolicy
  deriving DecidableEq

namespace Page

/-- The first page of an ordering. -/
def first (order : SortOrder) : Page := ⟨order, none, 20, .standard⟩

/-- The page that starts after a position. -/
def after (p : Page) (position : Option Cursor) : Page :=
  { p with position := position.filter fun c => !c.isEmpty }

def withSize (p : Page) (requested : Int64) : Page := { p with requested }

def withPolicy (p : Page) (policy : SizePolicy) : Page := { p with policy }

/-- The number of rows the page may have. -/
def size (p : Page) : UInt64 := p.policy.clamp p.requested

/-- The limit that tells whether a page follows: one row more than the page has. The sum wraps if
the page size is the largest number there is. -/
def limit (p : Page) : UInt64 := p.size + 1

def alike (p q : Page) : Bool :=
  p.order = q.order && p.requested = q.requested && p.policy = q.policy &&
    match p.position, q.position with
    | some c, some d => c.alike d
    | none, none => true
    | _, _ => false

end Page

end Keyset
