/-!
# CSV records

Records end at a line feed or a carriage return, fields at a comma, and blank lines are no
records. A quote opens a quoted field only as its first byte. Inside, a doubled quote is a quote;
what follows the closing quote belongs to the field as it stands. A quoted field that is not closed
runs to the end.
-/
namespace Keyset.Csv

/-- Where the next byte stands. -/
inductive Place where
  | recordStart
  | fieldStart
  | plain
  | quoted
  /-- Behind a quote that either closes the field or is half of a doubled one. -/
  | quoteSeen
  deriving DecidableEq, Repr

def comma : UInt8 := 44
def quote : UInt8 := 34

def isLineEnd (b : UInt8) : Bool := b = 10 || b = 13

/-- A record's fields, from the fields and the bytes read last to first. -/
def finish (fields : List (List UInt8)) (field : List UInt8) : List (List UInt8) :=
  (field.reverse :: fields).reverse

/-- The records in the bytes, where `fields` and `field` are what has been read of the current
one, last to first. -/
def scan (place : Place) (fields : List (List UInt8)) (field : List UInt8) :
    List UInt8 → List (List (List UInt8))
  | [] => if place = .recordStart then [] else [finish fields field]
  | b :: bs =>
    match place with
    | .quoted =>
      if b = quote then scan .quoteSeen fields field bs else scan .quoted fields (b :: field) bs
    | .recordStart =>
      if isLineEnd b then scan .recordStart fields field bs
      else if b = quote then scan .quoted fields field bs
      else if b = comma then scan .fieldStart (field.reverse :: fields) [] bs
      else scan .plain fields (b :: field) bs
    | .fieldStart =>
      if b = quote then scan .quoted fields field bs
      else outside b bs
    | .quoteSeen =>
      if b = quote then scan .quoted fields (b :: field) bs
      else outside b bs
    | .plain => outside b bs
where
  outside (b : UInt8) (bs : List UInt8) : List (List (List UInt8)) :=
    if b = comma then scan .fieldStart (field.reverse :: fields) [] bs
    else if isLineEnd b then finish fields field :: scan .recordStart [] [] bs
    else scan .plain fields (b :: field) bs

/-- The records of a file; a byte order mark at its start is not part of it. -/
def records : List UInt8 → List (List (List UInt8))
  | 0xEF :: 0xBB :: 0xBF :: bs => scan .recordStart [] [] bs
  | bs => scan .recordStart [] [] bs

end Keyset.Csv
