/-!
# UTF-8

`encode` gives the bytes of a text. `decode` reads bytes that need not be a text: a byte that
belongs to no character stands in the result as `none`, and reading goes on behind it.
-/
namespace Keyset.Text.Utf8

def encode (cs : List Char) : List UInt8 := cs.flatMap String.utf8EncodeChar

/-- The character that the bytes start with; it takes at most four of them. -/
def first? (bs : List UInt8) : Option Char :=
  (bs.take 4).toByteArray.utf8DecodeChar? 0

def decode : List UInt8 → List (Option Char)
  | [] => []
  | b :: bs =>
    match first? (b :: bs) with
    | some c => some c :: decode (bs.drop (c.utf8Size - 1))
    | none => none :: decode bs
termination_by bs => bs.length

/-- The text that bytes encode, if they do. -/
def text? (bs : List UInt8) : Option String :=
  ((decode bs).mapM id).map String.ofList

end Keyset.Text.Utf8
