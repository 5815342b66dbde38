import Keyset.Json.Document
import Keyset.Text.Utf8

/-!
# Reading JSON text

The text is a list of characters in which `none` stands for a byte that belongs to no character;
such a byte may only occur inside a string. Each step returns what it has read and the rest. An
escape for half a surrogate pair is well formed, but a string that needs it is no text.
-/
namespace Keyset.Json

abbrev Symbols := List (Option Char)

def skipBlanks (cs : Symbols) : Symbols :=
  cs.dropWhile fun c => c = some ' ' ∨ c = some '\n' ∨ c = some '\t' ∨ c = some '\r'

/-- One unit of a string's content. -/
inductive Unit16
  | char (c : Char)
  | code (n : Nat)
  | stray

/-- The character after a backslash. -/
def escaped? : Char → Option Char
  | '"' => some '"'
  | '\\' => some '\\'
  | '/' => some '/'
  | 'b' => some '\x08'
  | 'f' => some '\x0c'
  | 'n' => some '\n'
  | 'r' => some '\r'
  | 't' => some '\t'
  | _ => none

/-- The content of a string up to its closing quote. -/
def units? : Symbols → Option (List Unit16 × Symbols)
  | [] => none
  | none :: cs => (units? cs).map fun (us, rest) => (.stray :: us, rest)
  | some '\\' :: some 'u' :: some a :: some b :: some c :: some d :: cs =>
    match Number.ofHex? [a, b, c, d] with
    | none => none
    | some n => (units? cs).map fun (us, rest) => (.code n :: us, rest)
  | some '\\' :: some e :: cs =>
    match escaped? e with
    | none => none
    | some c => (units? cs).map fun (us, rest) => (.char c :: us, rest)
  | some c :: cs =>
    if c = '"' then some ([], cs)
    else if c = '\\' ∨ c.toNat < 32 then none
    else (units? cs).map fun (us, rest) => (.char c :: us, rest)

def isHighSurrogate (n : Nat) : Bool := 0xD800 ≤ n && n < 0xDC00

def isLowSurrogate (n : Nat) : Bool := 0xDC00 ≤ n && n < 0xE000

/-- The characters that units spell. Surrogates count only as a high one before a low one. -/
def chars? : List Unit16 → Option (List Char)
  | [] => some []
  | .stray :: _ => none
  | .char c :: us => (chars? us).map (c :: ·)
  | .code n :: .code m :: us =>
    if isHighSurrogate n then
      if isLowSurrogate m then
        (chars? us).map (Char.ofNat (0x10000 + (n - 0xD800) * 0x400 + (m - 0xDC00)) :: ·)
      else none
    else if isLowSurrogate n then none
    else (chars? (.code m :: us)).map (Char.ofNat n :: ·)
  | .code n :: us =>
    if isHighSurrogate n ∨ isLowSurrogate n then none
    else (chars? us).map (Char.ofNat n :: ·)

/-- A string, from behind its opening quote. -/
def string? (cs : Symbols) : Option (Option String × Symbols) :=
  (units? cs).map fun (us, rest) => ((chars? us).map String.ofList, rest)

/-- The leading digits. -/
def digits : Symbols → List Char × Symbols
  | some c :: cs =>
    if c.isDigit then ((c :: (digits cs).1), (digits cs).2) else ([], some c :: cs)
  | cs => ([], cs)

/-- A point with at least one digit after it, if there is a point. -/
def fraction? : Symbols → Option (List Char × Symbols)
  | some '.' :: cs =>
    match digits cs with
    | ([], _) => none
    | (ds, rest) => some ('.' :: ds, rest)
  | cs => some ([], cs)

/-- An exponent with at least one digit, if there is an `e`. -/
def exponent? : Symbols → Option (List Char × Symbols)
  | some c :: cs =>
    if c = 'e' ∨ c = 'E' then
      let (sign, cs) := match cs with
        | some '+' :: rest => (['+'], rest)
        | some '-' :: rest => (['-'], rest)
        | rest => ([], rest)
      match digits cs with
      | ([], _) => none
      | (ds, rest) => some (c :: sign ++ ds, rest)
    else some ([], some c :: cs)
  | cs => some ([], cs)

/-- A number without its sign. A leading zero stands alone. -/
def unsigned? (cs : Symbols) : Option (List Char × Symbols) := do
  let (whole, cs) ← match cs with
    | some '0' :: cs => some (['0'], cs)
    | cs => match digits cs with
      | ([], _) => none
      | (ds, rest) => some (ds, rest)
  let (fraction, cs) ← fraction? cs
  let (exponent, cs) ← exponent? cs
  return (whole ++ fraction ++ exponent, cs)

def number? : Symbols → Option (List Char × Symbols)
  | some '-' :: cs => (unsigned? cs).map fun (ds, rest) => ('-' :: ds, rest)
  | cs => unsigned? cs

/-- The rest behind a word. -/
def word? (w : String) (cs : Symbols) : Option Symbols :=
  let w := w.toList.map some
  if w.isPrefixOf cs then some (cs.drop w.length) else none

mutual

/-- A value. Every level of nesting takes one unit of fuel, and so does every item. -/
def value? : Nat → Symbols → Option (Document × Symbols)
  | 0, _ => none
  | fuel + 1, cs =>
    match skipBlanks cs with
    | some '\x7b' :: rest =>
      match skipBlanks rest with
      | some '\x7d' :: rest => some (.object [], rest)
      | rest => (members? fuel rest).map fun (ms, rest) => (.object ms, rest)
    | some '[' :: rest =>
      match skipBlanks rest with
      | some ']' :: rest => some (.array [], rest)
      | rest => (items? fuel rest).map fun (ds, rest) => (.array ds, rest)
    | some '"' :: rest => (string? rest).map fun (s, rest) => (.string s, rest)
    | some 'n' :: rest => (word? "ull" rest).map fun rest => (.null, rest)
    | some 't' :: rest => (word? "rue" rest).map fun rest => (.bool true, rest)
    | some 'f' :: rest => (word? "alse" rest).map fun rest => (.bool false, rest)
    | rest => (number? rest).map fun (ds, rest) => (.number ds, rest)

/-- The items of an array, one at least, and its closing bracket. -/
def items? : Nat → Symbols → Option (List Document × Symbols)
  | 0, _ => none
  | fuel + 1, cs =>
    match value? fuel cs with
    | none => none
    | some (d, rest) =>
      match skipBlanks rest with
      | some ']' :: rest => some ([d], rest)
      | some ',' :: rest => (items? fuel rest).map fun (ds, rest) => (d :: ds, rest)
      | _ => none

/-- The members of an object, one at least, and its closing brace. -/
def members? : Nat → Symbols → Option (List (Option String × Document) × Symbols)
  | 0, _ => none
  | fuel + 1, cs =>
    match skipBlanks cs with
    | some '"' :: rest =>
      match string? rest with
      | none => none
      | some (name, rest) =>
        match skipBlanks rest with
        | some ':' :: rest =>
          match value? fuel rest with
          | none => none
          | some (d, rest) =>
            match skipBlanks rest with
            | some '\x7d' :: rest => some ([(name, d)], rest)
            | some ',' :: rest => (members? fuel rest).map fun (ms, rest) => ((name, d) :: ms, rest)
            | _ => none
        | _ => none
    | _ => none

end

/-- A document that is the whole text, up to blanks. A step never takes less than a character, so
the fuel lasts. -/
def document? (cs : Symbols) : Option Document :=
  match value? (2 * cs.length + 1) cs with
  | some (d, rest) => if (skipBlanks rest).isEmpty then some d else none
  | none => none

/-- A document from a text. -/
def Document.ofText? (s : String) : Option Document := document? (s.toList.map some)

/-- A document from bytes. -/
def Document.ofBytes? (bs : List UInt8) : Option Document := document? (Text.Utf8.decode bs)

end Keyset.Json
