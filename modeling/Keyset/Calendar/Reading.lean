import Keyset.Calendar.Timestamp
import Keyset.Text.Blank

/-!
# Reading dates and timestamps

Each step reads the front of a text and returns the rest, or nothing. Dates come as year, month
and day with lenient widths. Timestamps have a strict form, RFC 3339, and a relaxed one that
allows blanks and unpadded numbers.
-/
namespace Keyset.Calendar
open Keyset.Text

/-- What a step has read, and the rest. -/
abbrev Step (α : Type) := List Char → Option (α × List Char)

/-- The number in the leading digits, at least one and at most `width` of them. -/
def number? (width : Nat) : Step Nat := fun cs =>
  let ds := (cs.take width).takeWhile Char.isDigit
  if ds.isEmpty then none else some (Nat.ofDigitChars 10 ds 0, cs.drop ds.length)

/-- The number in exactly `width` digits. -/
def fixed? (width : Nat) : Step Nat := fun cs =>
  let ds := cs.take width
  if ds.length = width ∧ ds.all Char.isDigit then
    some (Nat.ofDigitChars 10 ds 0, cs.drop width)
  else none

def char? (c : Char) : List Char → Option (List Char)
  | [] => none
  | d :: cs => if d = c then some cs else none

/-- A year of up to four digits, or of any number of them after a sign. -/
def year? : Step Int
  | '-' :: cs => (number? cs.length cs).map fun (n, rest) => (-(n : Int), rest)
  | '+' :: cs => (number? cs.length cs).map fun (n, rest) => ((n : Int), rest)
  | cs => (number? 4 cs).map fun (n, rest) => ((n : Int), rest)

/-- Year, month and day. Blanks may precede each number and, if `beforeDash`, each `-`. -/
def civil? (beforeDash : Bool) : Step Date := fun cs => do
  let dash (cs : List Char) := char? '-' (if beforeDash then trimStart cs else cs)
  let (year, cs) ← year? (trimStart cs)
  let (month, cs) ← number? 2 (trimStart (← dash cs))
  let (day, cs) ← number? 2 (trimStart (← dash cs))
  return (← Date.ofCivil? year month day, cs)

/-- A clock time: seconds of the day and nanoseconds. Second 60 is the leap second after 59. -/
structure Clock where
  seconds : Nat
  nanos : Nat

def clock? (hour minute second nanos : Nat) : Option Clock :=
  if hour < 24 ∧ minute < 60 ∧ second ≤ 60 then
    some (if second = 60 then ⟨hour * 3600 + minute * 60 + 59, nanos + 1000000000⟩
      else ⟨hour * 3600 + minute * 60 + second, nanos⟩)
  else none

/-- Nanoseconds after an optional point. Digits after the ninth are dropped. -/
def fraction? : Step Nat
  | '.' :: cs => do
    let (n, rest) ← number? 9 cs
    return (n * Nat.pow 10 (9 - (cs.length - rest.length)), rest.dropWhile Char.isDigit)
  | cs => some (0, cs)

/-- Seconds east of UTC, at most 23:59 either way: `Z`, or a sign, hours and minutes, with
`separator` between them. The minus sign U+2212 is as good as a hyphen. -/
def offset? (separator : List Char → Option (List Char)) : Step Int
  | [] => none
  | c :: cs =>
    if c = 'Z' ∨ c = 'z' then some (0, cs)
    else do
      let sign : Int ←
        if c = '+' then some 1 else if c = '-' ∨ c = '\u2212' then some (-1) else none
      let (hours, cs) ← fixed? 2 cs
      let (minutes, cs) ← fixed? 2 (← separator cs)
      if hours < 24 ∧ minutes < 60 then some (sign * (hours * 3600 + minutes * 60), cs) else none

/-- The moment at which a clock `offset` seconds east of UTC shows a date and time. -/
def moment? (date : Date) (clock : Clock) (offset : Int) : Option Timestamp :=
  Timestamp.ofParts? (date.day * 86400 + clock.seconds - offset) clock.nanos

/-- Between date and time stands a `T` or one blank space. -/
def separator? : List Char → Option (List Char)
  | 'T' :: cs | 't' :: cs | ' ' :: cs => some cs
  | _ => none

/-- RFC 3339, with all numbers padded. -/
def strictTimestamp? (cs : List Char) : Option Timestamp := do
  let (year, cs) ← fixed? 4 cs
  let (month, cs) ← fixed? 2 (← char? '-' cs)
  let (day, cs) ← fixed? 2 (← char? '-' cs)
  let date ← Date.ofCivil? year month day
  let (hour, cs) ← fixed? 2 (← separator? cs)
  let (minute, cs) ← fixed? 2 (← char? ':' cs)
  let (second, cs) ← fixed? 2 (← char? ':' cs)
  let (nanos, cs) ← fraction? cs
  let clock ← clock? hour minute second nanos
  let (offset, cs) ← offset? (char? ':') cs
  if cs.isEmpty then moment? date clock offset else none

/-- The zone of a relaxed timestamp. Colons and blanks may stand between hours and minutes. -/
def relaxedZone? : Step Int := fun cs =>
  if (cs.take 3).map Char.toUpper = ['U', 'T', 'C'] then some (0, cs.drop 3)
  else offset? (fun cs => some (cs.dropWhile fun c => c = ':' || isBlank c)) cs

/-- The relaxed form: unpadded numbers, blanks around them, signed years, `UTC` as a zone. -/
def relaxedTimestamp? (cs : List Char) : Option Timestamp := do
  let colon (cs : List Char) := char? ':' (trimStart cs)
  let (date, cs) ← civil? true cs
  let (hour, cs) ← number? 2 (trimStart (← separator? cs))
  let (minute, cs) ← number? 2 (trimStart (← colon cs))
  let (second, cs) ← number? 2 (trimStart (← colon cs))
  let (nanos, cs) ← fraction? cs
  let clock ← clock? hour minute second nanos
  let (offset, cs) ← relaxedZone? (trimStart cs)
  if (trimStart cs).isEmpty then moment? date clock offset else none

/-- A date that is the whole text. -/
def date? (cs : List Char) : Option Date := do
  let (date, rest) ← civil? false cs
  if rest.isEmpty then some date else none

/-- As `date?`, with blanks allowed before each `-` and at the end. -/
def relaxedDate? (cs : List Char) : Option Date := do
  let (date, rest) ← civil? true cs
  if (trimStart rest).isEmpty then some date else none

end Keyset.Calendar
