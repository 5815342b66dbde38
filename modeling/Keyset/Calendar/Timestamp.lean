import Keyset.Calendar.Date

/-!
# Timestamps

A moment in UTC: seconds from 1970-01-01T00:00:00Z and nanoseconds forward from that second. A
leap second is the second before it with `10 ^ 9` nanoseconds more, so that the order of the pairs
is the order in time.
-/
namespace Keyset

/-- A moment within the range of dates, of those that have a text of their own. In the last second
of a minute the nanoseconds may count on for one second more, the leap second. A clock may count on
like this in any other second too; such a moment is left out here, since its text is that of the
second after it and is read as that. -/
structure Timestamp where
  seconds : Int
  nanos : Nat
  first_le : -96465292 * 86400 ≤ seconds := by decide
  lt_last : seconds < 95026237 * 86400 := by decide
  nanos_lt : nanos < 2000000000 := by decide
  /-- A leap second ends a minute. -/
  leap : 1000000000 ≤ nanos → seconds % 60 = 59 := by decide

namespace Timestamp

theorem ext_parts {a b : Timestamp} (hs : a.seconds = b.seconds) (hn : a.nanos = b.nanos) :
    a = b := by
  cases a; cases b; simp_all

instance : DecidableEq Timestamp := fun a b =>
  if h : a.seconds = b.seconds ∧ a.nanos = b.nanos then isTrue (ext_parts h.1 h.2)
  else isFalse (fun e => h ⟨congrArg seconds e, congrArg nanos e⟩)

def ofParts? (seconds : Int) (nanos : Nat) : Option Timestamp :=
  if h : (-96465292 * 86400 ≤ seconds ∧ seconds < 95026237 * 86400) ∧ nanos < 2000000000 ∧
      (1000000000 ≤ nanos → seconds % 60 = 59) then
    some ⟨seconds, nanos, h.1.1, h.1.2, h.2.1, h.2.2⟩
  else none

/-- The day the moment falls on. -/
def date (t : Timestamp) : Date where
  day := t.seconds / 86400
  first_le := by have := t.first_le; omega
  le_last := by have := t.lt_last; omega

/-- The fraction of a second in 0, 3, 6 or 9 digits, the fewest that lose nothing. -/
def fractionText (nanos : Nat) : List Char :=
  if nanos = 0 then []
  else if nanos % 1000000 = 0 then '.' :: Date.padded 3 (nanos / 1000000)
  else if nanos % 1000 = 0 then '.' :: Date.padded 6 (nanos / 1000)
  else '.' :: Date.padded 9 nanos

/-- The time of day as `HH:MM:SS` and a fraction; a leap second is second 60. -/
def clockText (t : Timestamp) : List Char :=
  let s := (t.seconds % 86400).toNat
  let isLeap := 1000000000 ≤ t.nanos
  Date.padded 2 (s / 3600) ++ ':' :: Date.padded 2 (s / 60 % 60) ++ ':' ::
    Date.padded 2 (s % 60 + if isLeap then 1 else 0) ++ fractionText (t.nanos % 1000000000)

/-- The moment as date, separator, time and zone. -/
def text (separator : Char) (zone : String) (t : Timestamp) : List Char :=
  t.date.text ++ separator :: t.clockText ++ zone.toList

end Timestamp

end Keyset
