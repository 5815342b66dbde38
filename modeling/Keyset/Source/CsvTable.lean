import Keyset.Csv.Records
import Keyset.Source.Memory
import Keyset.Text.Utf8
import Keyset.Value.Infer

/-!
# Tables from CSV files

The first record names the columns, each other record is a row of inferred values. A record with
another number of fields than the header is left out; bytes that are no text make the file
unusable.
-/
namespace Keyset
open Text

structure CsvTable where
  headers : List String
  table : MemoryTable
  deriving DecidableEq

/-- A record that was left out. Records are counted from 1, behind the header. -/
structure SkippedRecord where
  number : Nat
  expected : Nat
  found : Nat
  deriving DecidableEq, Repr

namespace CsvTable

/-- The trimmed texts of a record's fields. -/
def fields? (record : List (List UInt8)) : Option (List String) :=
  record.mapM fun field => (Utf8.text? field).map strip

def row (entity : String) (headers cells : List String) : Row :=
  .ofPairs entity (headers.zip (cells.map Value.infer))

/-- The rows of records, the first of them being record `number`. The records left out are told
even if a later one turns out to be unusable. -/
def rows (entity : String) (headers : List String) (number : Nat) :
    List (List (List UInt8)) → List SkippedRecord × Option (List Row)
  | [] => ([], some [])
  | record :: records =>
    match fields? record with
    | none => ([], none)
    | some cells =>
      let (skipped, rest) := rows entity headers (number + 1) records
      if cells.length = headers.length then
        (skipped, rest.map (row entity headers cells :: ·))
      else (⟨number, headers.length, cells.length⟩ :: skipped, rest)

/-- A table from the bytes of a file. -/
def read (entity : String) (bytes : List UInt8) :
    List SkippedRecord × Except SourceError CsvTable :=
  match Csv.records bytes with
  | [] => ([], .error (.noHeader entity))
  | header :: records =>
    match fields? header with
    | none => ([], .error .malformed)
    | some headers =>
      match rows entity headers 1 records with
      | (skipped, some rows) => (skipped, .ok ⟨headers, ⟨entity, rows⟩⟩)
      | (skipped, none) => (skipped, .error .malformed)

end CsvTable

end Keyset
