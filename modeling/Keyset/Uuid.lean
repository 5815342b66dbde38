import Keyset.Number.Hex

/-!
# UUIDs

An identifier of 128 bits, ordered as a number. It is written in lower case with hyphens after 8,
12, 16 and 20 digits. It is read in either case, also without hyphens, in braces or after
`urn:uuid:`, which may be in either case too.
-/
namespace Keyset

structure Uuid where
  value : BitVec 128
  deriving DecidableEq, Repr

namespace Uuid
open Number

def text (u : Uuid) : List Char :=
  let ds := hex 32 u.value.toNat
  ds.take 8 ++ '-' :: (ds.drop 8).take 4 ++ '-' :: (ds.drop 12).take 4 ++
    '-' :: (ds.drop 16).take 4 ++ '-' :: ds.drop 20

def ofDigits? (ds : List Char) : Option Uuid := (ofHex? ds).map fun n => ⟨BitVec.ofNat 128 n⟩

/-- The 36 characters of the hyphenated form. -/
def hyphenated? (cs : List Char) : Option Uuid :=
  if cs.length = 36 ∧ [8, 13, 18, 23].all (fun i => cs[i]? = some '-') then
    ofDigits? (cs.take 8 ++ (cs.drop 9).take 4 ++ (cs.drop 14).take 4 ++ (cs.drop 19).take 4 ++
      cs.drop 24)
  else none

def read? (cs : List Char) : Option Uuid :=
  if cs.length = 32 then ofDigits? cs
  else if (cs.take 9).map Char.toLower = "urn:uuid:".toList then hyphenated? (cs.drop 9)
  else match cs with
    | '{' :: rest => if rest.getLast? = some '}' then hyphenated? rest.dropLast else none
    | _ => hyphenated? cs

end Uuid

end Keyset
