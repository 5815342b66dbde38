import Keyset.Number.Hex

/-!
# JSON documents

A document keeps a number as it is spelled and an object's members as they stand, repeated names
included: what they mean depends on the type that is read from them. A string may spell text that
is no Unicode text, such as half of a surrogate pair; it is `none` then, and only matters to those
who look at it. `render` writes the compact form.
-/
namespace Keyset.Json

inductive Document where
  | null
  | bool (b : Bool)
  | number (spelling : List Char)
  | string (text : Option String)
  | array (items : List Document)
  | object (members : List (Option String × Document))

/-- A character inside a string. Only the quote, the backslash and control characters change. -/
def escape (c : Char) : List Char :=
  if c = '"' then ['\\', '"']
  else if c = '\\' then ['\\', '\\']
  else if c = '\x08' then ['\\', 'b']
  else if c = '\t' then ['\\', 't']
  else if c = '\n' then ['\\', 'n']
  else if c = '\x0c' then ['\\', 'f']
  else if c = '\r' then ['\\', 'r']
  else if c.toNat < 32 then '\\' :: 'u' :: Number.hex 4 c.toNat
  else [c]

/-- A string with its quotes; the text that is no text is written as a lone surrogate. -/
def renderString : Option String → List Char
  | some s => '"' :: s.toList.flatMap escape ++ ['"']
  | none => "\"\\ud800\"".toList

mutual

def Document.render : Document → List Char
  | .null => "null".toList
  | .bool b => if b then "true".toList else "false".toList
  | .number spelling => spelling
  | .string s => renderString s
  | .array items => '[' :: renderItems items ++ [']']
  | .object members => '\x7b' :: renderMembers members ++ ['\x7d']

def renderItems : List Document → List Char
  | [] => []
  | [d] => d.render
  | d :: ds => d.render ++ ',' :: renderItems ds

def renderMembers : List (Option String × Document) → List Char
  | [] => []
  | [(name, d)] => renderString name ++ ':' :: d.render
  | (name, d) :: ms => renderString name ++ ':' :: d.render ++ ',' :: renderMembers ms

end

namespace Document

def text (d : Document) : String := String.ofList d.render

/-- A string of Unicode text. -/
def ofString (s : String) : Document := .string (some s)

def ofChars (cs : List Char) : Document := .string (some (String.ofList cs))

def ofNat (n : Nat) : Document := .number (Nat.toDigits 10 n)

def ofInt (n : Int) : Document :=
  .number (if n < 0 then '-' :: Nat.toDigits 10 n.natAbs else Nat.toDigits 10 n.natAbs)

/-- An object of the given members, in this order. -/
def record (members : List (String × Document)) : Document :=
  .object (members.map fun (name, d) => (some name, d))

def ofOption (f : α → Document) : Option α → Document
  | some a => f a
  | none => .null

end Document

end Keyset.Json
