import Keyset.Hash.Xxh3
import Keyset.Order.Basic

/-!
# Fingerprints

A fingerprint stands for the order of rows: it is the hash of a text that states the name,
direction and null place of each key column, and nothing else about the ordering.
-/
namespace Keyset
open Text

namespace SortColumn

def fingerprintText (c : SortColumn) : String :=
  fold c.name ++
    (match c.direction with
      | .ascending => ":a"
      | .descending => ":d") ++
    (match c.nullPlace with
      | .first => ":f"
      | .last => ":l")

end SortColumn

namespace SortOrder

def fingerprintText (o : SortOrder) : String :=
  ",".intercalate (o.key.map (·.fingerprintText))

def fingerprint (o : SortOrder) : UInt64 := Hash.xxh3 o.fingerprintText.toUTF8

/-- The fingerprint in sixteen hexadecimal digits. -/
def fingerprintHex (o : SortOrder) : String :=
  String.ofList (Number.hex 16 o.fingerprint.toNat)

end SortOrder

end Keyset
