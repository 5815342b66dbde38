/-!
# Blank characters

The characters that trimming removes: the code points with the Unicode property `White_Space`.
Zero-width characters and the byte order mark are not among them.
-/
namespace Keyset.Text

/-- The ranges of code points with the property `White_Space`, 25 code points in all. -/
def blankRanges : List (Nat × Nat) :=
  [(0x09, 0x0D), (0x20, 0x20), (0x85, 0x85), (0xA0, 0xA0), (0x1680, 0x1680), (0x2000, 0x200A),
   (0x2028, 0x2029), (0x202F, 0x202F), (0x205F, 0x205F), (0x3000, 0x3000)]

def isBlank (c : Char) : Bool :=
  blankRanges.any fun (first, last) => first ≤ c.toNat && c.toNat ≤ last

def trimStart (cs : List Char) : List Char := cs.dropWhile isBlank

def trimEnd (cs : List Char) : List Char := (cs.reverse.dropWhile isBlank).reverse

/-- The characters left when leading and trailing blanks are gone. -/
def trim (cs : List Char) : List Char := trimEnd (trimStart cs)

/-- The whole text trimmed. -/
def strip (s : String) : String := String.ofList (trim s.toList)

end Keyset.Text
