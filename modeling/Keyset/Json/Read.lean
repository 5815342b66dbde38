import Keyset.Json.Document
import Keyset.Number.Whole
import Keyset.Number.Rounding

/-!
# Typed reading of documents

What a document means for a wanted type, or nothing. Integers must be spelled as integers; records
come as objects or as arrays of all fields in order; a variant is its name or an object of one
member.
-/
namespace Keyset.Json.Document

def string? : Document → Option String
  | .string s => s
  | _ => none

def bool? : Document → Option Bool
  | .bool b => some b
  | _ => none

/-- An integer without fraction or exponent. `-0` is a floating point number. -/
def integer? : Document → Option Int
  | .number ['-', '0'] => none
  | .number ds => Number.integer? ds
  | _ => none

def int64? (d : Document) : Option Int64 := do
  let n ← d.integer?
  if Int64.minValue.toInt ≤ n ∧ n ≤ Int64.maxValue.toInt then some (Int64.ofInt n) else none

/-- An unsigned integer below a bound. -/
def below? (bound : Nat) (d : Document) : Option Nat := do
  let n ← d.integer?
  if 0 ≤ n ∧ n < bound then some n.toNat else none

def uint64? (d : Document) : Option UInt64 := (d.below? UInt64.size).map UInt64.ofNat

/-- Any number whose nearest `Binary64` is finite. -/
def binary64? : Document → Option Binary64
  | .number ds => Binary64.read? ds
  | _ => none

/-- Nothing for `null`, else what `f` reads. -/
def option? (f : Document → Option α) : Document → Option (Option α)
  | .null => some none
  | d => (f d).map some

def list? (f : Document → Option α) : Document → Option (List α)
  | .array ds => ds.mapM f
  | _ => none

/-- An object's members as a list of names and values; names may repeat. -/
def pairs? (f : Document → Option α) : Document → Option (List (String × α))
  | .object ms => ms.mapM fun (name, d) => do return (← name, ← f d)
  | _ => none

/-- A variant's name and its content, if it has one. -/
def variant? : Document → Option (String × Option Document)
  | .string s => s.map fun s => (s, none)
  | .object [(name, d)] => name.map fun name => (name, some d)
  | _ => none

/-- A variant without content; its content may be spelled as `null`. -/
def isUnit : Option Document → Bool
  | none => true
  | some .null => true
  | _ => false

/-- The documents of known fields. Unknown members are skipped, and no known field comes twice. -/
def members? (names : List String) (ms : List (Option String × Document)) :
    Option (List (Option Document)) := do
  let ms ← ms.mapM fun (name, d) => name.map fun name => (name, d)
  if names.all fun name => (ms.filter (·.1 = name)).length ≤ 1 then
    some (names.map fun name => (ms.find? (·.1 = name)).map (·.2))
  else none

/-- The fields of a record. In an object a field may be missing, in an array none may. -/
def record? (names : List String) : Document → Option (List (Option Document))
  | .object ms => members? names ms
  | .array ds => if ds.length = names.length then some (ds.map some) else none
  | _ => none

/-- The fields of a record that all have defaults: trailing ones may be missing in an array. -/
def optionalRecord? (names : List String) : Document → Option (List (Option Document))
  | .object ms => members? names ms
  | .array ds =>
    if ds.length ≤ names.length then
      some (ds.map some ++ List.replicate (names.length - ds.length) none)
    else none
  | _ => none

/-- A field that may be missing or null. -/
def optionField? (f : Document → Option α) : Option Document → Option (Option α)
  | none => some none
  | some d => d.option? f

/-- A field that must be there. -/
def field? (f : Document → Option α) (d : Option Document) : Option α := d.bind f

end Keyset.Json.Document
