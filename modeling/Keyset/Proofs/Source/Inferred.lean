import Keyset.Proofs.Reader.Relay
import Keyset.Proofs.Source.CsvTable
import Keyset.Proofs.Value.Infer

/-! # Rows of inferred values

Whatever records are left out, a row that is read from a file holds what is
inferred from the fields of a record (`row_of_read`). No number that is not
finite is ever inferred. So the position of a row, in any ordering, is written
in full, and what is written is read as the position (`infer_exact`). -/

namespace Keyset

open Text Number

namespace CsvTable

variable {entity : String} {headers : List String}

theorem isFinite_row (entity : String) (headers cells : List String) :
    (row entity headers cells).isFinite = true := by
  refine List.all_eq_true.mpr fun f hf => ?_
  obtain ⟨⟨name, v⟩, hpair, rfl⟩ := List.mem_map.mp hf
  obtain ⟨raw, -, rfl⟩ := List.mem_map.mp (List.of_mem_zip hpair).2
  exact Value.isFinite_infer raw

theorem row_of_mem_rows {number : Nat} {records : List (List (List UInt8))} {found : List Row}
    (h : (rows entity headers number records).2 = some found) :
    ∀ r ∈ found, ∃ cells, r = row entity headers cells := by
  induction records generalizing number found with
  | nil =>
    cases h
    exact List.forall_mem_nil _
  | cons record records ih =>
    rw [rows] at h
    split at h
    · cases h
    · rename_i cells _
      split at h
      rename_i skipped rest hrest
      split at h
      · obtain ⟨found, hfound, rfl⟩ := Option.map_eq_some_iff.mp h
        exact List.forall_mem_cons.mpr ⟨⟨cells, rfl⟩, ih ((congrArg Prod.snd hrest).trans hfound)⟩
      · exact ih ((congrArg Prod.snd hrest).trans h)

theorem row_of_read {bytes : List UInt8} {skipped : List SkippedRecord} {csv : CsvTable}
    (h : read entity bytes = (skipped, .ok csv)) :
    ∀ r ∈ csv.table.rows, ∃ cells, r = row entity csv.headers cells := by
  unfold read at h
  split at h
  · cases h
  · split at h
    · cases h
    · split at h
      · rename_i hrows
        cases h
        exact row_of_mem_rows (congrArg Prod.snd hrows)
      · cases h

end CsvTable

/-- **Inferred numbers are exact and finite.** If a text is decimal digits, behind a sign or not and
with blanks around them or not, the number that they denote is inferred: as a signed integer of 64
bits if it is one, else as an unsigned one if it is one of these. No text is inferred to be a NaN or
an infinity. The blanks around a text never matter, and text that stays text is left without them
and is not empty. So whatever file is read, the position of any of its rows, in any ordering that it
has one in, has finite numbers only, and is read back from what is written of it. -/
theorem Value.infer_exact (raw : String) :
    (∀ n : Int, Denotes (trim raw.toList) n →
      (-2 ^ 63 ≤ n → n < 2 ^ 63 → ∃ i : Int64, i.toInt = n ∧ infer raw = .int i) ∧
      (2 ^ 63 ≤ n → n < 2 ^ 64 → ∃ u : UInt64, (u.toNat : Int) = n ∧ infer raw = .uint u)) ∧
    (∀ f, infer raw = .float f → f.isFinite = true) ∧
    infer (strip raw) = infer raw ∧
    (∀ t, infer raw = .string t → t = strip raw ∧ t ≠ "") ∧
    ∀ (entity : String) (bytes : List UInt8) (skipped : List SkippedRecord) (csv : CsvTable),
      CsvTable.read entity bytes = (skipped, .ok csv) →
      ∀ row ∈ csv.table.rows, ∀ (o : SortOrder) (c : Cursor), Cursor.ofRow o row = .ok c →
        c.isFinite = true ∧ Cursor.ofDocument? c.document = some c := by
  refine ⟨fun n hn => ⟨fun hmin hmax => ?_, fun hmin hmax => ?_⟩, fun f hf => ?_, infer_strip raw,
    fun t => infer_eq_string, fun entity bytes skipped csv hread row hrow o c hc => ?_⟩
  · have hvalue : (Int64.ofInt n).toInt = n := Int64.toInt_ofInt_of_le hmin hmax
    exact ⟨.ofInt n, hvalue, infer_eq_int_iff.mpr (hvalue.symm ▸ hn)⟩
  · obtain ⟨k, rfl⟩ := Int.eq_ofNat_of_zero_le (a := n) (by omega)
    have hk : k < UInt64.size := show k < 2 ^ 64 by omega
    have hvalue : (UInt64.ofNat k).toNat = k := UInt64.toNat_ofNat_of_lt' hk
    exact ⟨.ofNat k, by rw [hvalue], infer_eq_uint_iff.mpr ⟨hvalue.symm ▸ hn, by omega⟩⟩
  · have hfinite := isFinite_infer raw
    rwa [hf] at hfinite
  · obtain ⟨cells, rfl⟩ := CsvTable.row_of_read hread row hrow
    have hfinite : c.isFinite = true :=
      Cursor.isFinite_ofRow hc (CsvTable.isFinite_row entity csv.headers cells)
    exact ⟨hfinite, Cursor.ofDocument?_document hfinite⟩

namespace Post

/-- Codes that look like numbers, the second being none that is finite. -/
def hugeCodes : String := "code,title\n 007 ,a\n 1e999,b\n"

/-- The ends of the ranges are read behind blanks and zeros. A file with a code that is out of any
range has it as text, and the position behind it is read back. -/
theorem infer_exact_at_bounds :
    (∃ i : Int64, i.toInt = -2 ^ 63 ∧ Value.infer "-0009223372036854775808\t" = .int i) ∧
    (∃ u : UInt64, (u.toNat : Int) = 2 ^ 64 - 1 ∧
      Value.infer " +0018446744073709551615" = .uint u) ∧
    ∃ csv, CsvTable.read "posts" (Utf8.encode hugeCodes.toList) = ([], .ok csv) ∧
      csv.table.rows.map (fun row => row.value "code") = [.int 7, .string "1e999"] ∧
      ∀ row ∈ csv.table.rows, ∃ c, Cursor.ofRow byCode row = .ok c ∧ c.isFinite = true ∧
        Cursor.ofDocument? c.document = some c := by
  have hmin : Denotes (trim "-0009223372036854775808\t".toList) (-2 ^ 63) :=
    integer?_eq_some_iff.mp (by decide)
  have hmax : Denotes (trim " +0018446744073709551615".toList) (2 ^ 64 - 1) :=
    integer?_eq_some_iff.mp (by decide)
  have hcells : CsvTable.cells hugeCodes = [["code", "title"], ["007", "a"], ["1e999", "b"]] := by
    cbv
  have hread : CsvTable.read "posts" (Utf8.encode hugeCodes.toList) = _ :=
    CsvTable.read_eq hcells (by decide)
  obtain ⟨-, -, -, -, hposition⟩ := Value.infer_exact ""
  refine ⟨((Value.infer_exact _).1 _ hmin).1 (by decide) (by decide),
    ((Value.infer_exact _).1 _ hmax).2 (by decide) (by decide), _, hread, by decide, ?_⟩
  intro row hrow
  obtain ⟨c, hc⟩ : ∃ c, Cursor.ofRow byCode row = .ok c := by
    refine Cursor.ofRow_eq_ok_iff.mpr ?_
    revert row hrow
    decide
  exact ⟨c, hc, hposition _ _ _ _ hread row hrow byCode c hc⟩

end Post

end Keyset
