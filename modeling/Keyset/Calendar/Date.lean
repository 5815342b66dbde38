/-!
# Dates

A date is a day counted from 1970-01-01, so dates are ordered as integers are. `civil` and
`ofCivil?` go to and from year, month and day of the proleptic Gregorian calendar; there is a year
0, and years before it are negative.
-/
namespace Keyset

/-- A day of the years -262143 to 262142. -/
structure Date where
  day : Int
  first_le : -96465292 ≤ day := by decide
  le_last : day ≤ 95026236 := by decide

instance : DecidableEq Date := fun a b =>
  if h : a.day = b.day then isTrue (by cases a; cases b; simp_all)
  else isFalse (fun e => h (congrArg Date.day e))

namespace Date

theorem ext_day {a b : Date} (h : a.day = b.day) : a = b := by
  cases a; cases b; simp_all

def ofDay? (day : Int) : Option Date :=
  if h : -96465292 ≤ day ∧ day ≤ 95026236 then some ⟨day, h.1, h.2⟩ else none

def isLeapYear (year : Int) : Bool := year % 4 = 0 && (year % 100 ≠ 0 || year % 400 = 0)

def daysInMonth (year : Int) : Nat → Nat
  | 2 => if isLeapYear year then 29 else 28
  | 4 | 6 | 9 | 11 => 30
  | _ => 31

/-- The number of the day. Years are taken to start in March, in cycles of 400. -/
def dayNumber (year : Int) (month day : Nat) : Int :=
  let y := if month ≤ 2 then year - 1 else year
  let cycle := y / 400
  let inCycle := y % 400
  let ofYear := (153 * (if 2 < month then month - 3 else month + 9) + 2) / 5 + day - 1
  cycle * 146097 + inCycle * 365 + inCycle / 4 - inCycle / 100 + ofYear - 719468

/-- The date of a year, month and day, if there is one. -/
def ofCivil? (year : Int) (month day : Nat) : Option Date :=
  if 1 ≤ month ∧ month ≤ 12 ∧ 1 ≤ day ∧ day ≤ daysInMonth year month then
    ofDay? (dayNumber year month day)
  else none

/-- Year, month and day. -/
def civil (date : Date) : Int × Nat × Nat :=
  let z := date.day + 719468
  let cycle := z / 146097
  let d := (z % 146097).toNat
  let inCycle := (d - d / 1460 + d / 36524 - d / 146096) / 365
  let ofYear := d - (365 * inCycle + inCycle / 4 - inCycle / 100)
  let m := (5 * ofYear + 2) / 153
  let month := if m < 10 then m + 3 else m - 9
  let year := inCycle + cycle * 400
  (if month ≤ 2 then year + 1 else year, month, ofYear - (153 * m + 2) / 5 + 1)

/-- Decimal digits with zeros in front, `width` characters or more. -/
def padded (width n : Nat) : List Char :=
  let ds := Nat.toDigits 10 n
  List.replicate (width - ds.length) '0' ++ ds

/-- Four digits or more. Years outside 0 to 9999 have a sign. -/
def yearText (year : Int) : List Char :=
  (if year < 0 then ['-'] else if 9999 < year then ['+'] else []) ++ padded 4 year.natAbs

/-- The date as `YYYY-MM-DD`. -/
def text (date : Date) : List Char :=
  let (year, month, day) := date.civil
  yearText year ++ '-' :: padded 2 month ++ '-' :: padded 2 day

end Date

end Keyset
