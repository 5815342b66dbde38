import Keyset.Text.Printable

/-!
# Quoted text in log lines

Text between double quotes, where each character that cannot be shown stands as an escape; and
messages, in which characters that steer a terminal are made visible.
-/
namespace Keyset.Text

/-- The code point of a character between braces. -/
def codeEscape (c : Char) : List Char :=
  '\\' :: 'u' :: '\x7b' :: Nat.toDigits 16 c.toNat ++ ['\x7d']

def quoteChar (c : Char) : List Char :=
  if c = '\x00' then ['\\', '0']
  else if c = '\t' then ['\\', 't']
  else if c = '\r' then ['\\', 'r']
  else if c = '\n' then ['\\', 'n']
  else if c = '\\' then ['\\', '\\']
  else if c = '"' then ['\\', '"']
  else if isPrintable c then [c]
  else codeEscape c

def quoted (s : String) : String :=
  String.ofList ('"' :: s.toList.flatMap quoteChar ++ ['"'])

/-- Escape, bell, backspace, form feed and delete by their codes, and the controls above them. -/
def visibleChar (c : Char) : List Char :=
  if c = '\x1b' then "\\x1b".toList
  else if c = '\x07' then "\\x07".toList
  else if c = '\x08' then "\\x08".toList
  else if c = '\x0c' then "\\x0c".toList
  else if c = '\x7f' then "\\x7f".toList
  else if 0x80 ≤ c.toNat ∧ c.toNat ≤ 0x9f then codeEscape c
  else [c]

def visible (s : String) : String := String.ofList (s.toList.flatMap visibleChar)

end Keyset.Text
