import Keyset.Proofs.Csv.Records
import Keyset.Proofs.Cursor.Names
import Keyset.Proofs.Order.Key
import Keyset.Proofs.Reader.Covers
import Keyset.Proofs.Value.Infer
import Keyset.Source.CsvTable
import Mathlib

/-! # Walking a column of a CSV file

A text is always read as a table, one row for each record as long as the header
(`read_eq`). Under a header that no other has, ignoring case, a row holds what is
inferred from its cell (`value_row`), and that is not null unless the cell is
empty. So whether walks by a column cover the table is told by the inferred
values alone: no two may compare equal (`walks_cover_iff`). That the texts of
the cells differ is not enough, since several texts may stand for one number
(`Post.codes_collide`). -/

namespace Keyset

open Text

namespace CsvTable

variable {entity text : String} {headers : List String} {records : List (List String)}

/-- The trimmed text of a field. -/
def cell (field : List UInt8) : String := strip ((Utf8.text? field).getD "")

/-- The records of a text, as the trimmed texts of their fields. -/
def cells (text : String) : List (List String) :=
  (Csv.records (Utf8.encode text.toList)).map (·.map cell)

/-- The cells of a column, from the top. -/
def column (i : Nat) (records : List (List String)) : List String := records.map (·.getD i "")

/-! ## Reading a text -/

theorem fields?_of_text {record : List (List UInt8)} (h : ∀ f ∈ record, Csv.IsText f) :
    fields? record = some (record.map cell) := by
  induction record with
  | nil => rfl
  | cons f record ih =>
    obtain ⟨hf, hrecord⟩ := List.forall_mem_cons.mp h
    obtain ⟨cs, rfl⟩ := hf
    have hcell : (Utf8.text? (Utf8.encode cs)).map strip = some (cell (Utf8.encode cs)) := by
      rw [cell, Utf8.text?_encode]
      rfl
    have hrest := ih hrecord
    rw [fields?] at hrest ⊢
    rw [List.mapM_cons, hcell, hrest]
    rfl

theorem rows_of_text {records : List (List (List UInt8))} (number : Nat)
    (htext : ∀ record ∈ records, ∀ f ∈ record, Csv.IsText f)
    (hfull : ∀ record ∈ records, record.length = headers.length) :
    rows entity headers number records =
      ([], some (records.map fun record => row entity headers (record.map cell))) := by
  induction records generalizing number with
  | nil => rfl
  | cons record records ih =>
    obtain ⟨hrecord, htext⟩ := List.forall_mem_cons.mp htext
    obtain ⟨hlength, hfull⟩ := List.forall_mem_cons.mp hfull
    have hcells : (record.map cell).length = headers.length := by rw [List.length_map, hlength]
    simp only [rows, fields?_of_text hrecord, ih (number + 1) htext hfull, hcells, if_true]
    rfl

/-- A text whose records are as long as its header is read as the table of all its records. -/
theorem read_eq (h : cells text = headers :: records)
    (hfull : ∀ record ∈ records, record.length = headers.length) :
    read entity (Utf8.encode text.toList) =
      ([], .ok ⟨headers, ⟨entity, records.map (row entity headers)⟩⟩) := by
  have htext := Csv.records_text text.toList
  rw [cells] at h
  obtain ⟨header, bodies, hrecords, rfl, rfl⟩ := List.map_eq_cons_iff.mp h
  rw [hrecords] at htext
  obtain ⟨hheader, hbodies⟩ := List.forall_mem_cons.mp htext
  have hlength : ∀ record ∈ bodies, record.length = (header.map cell).length := by
    intro record hm
    rw [← hfull _ (List.mem_map_of_mem hm), List.length_map]
  simp only [read, hrecords, fields?_of_text hheader, rows_of_text 1 hbodies hlength]
  rw [List.map_map]
  rfl

theorem strip_of_mem_cells {record : List String} {c : String} (hr : record ∈ cells text)
    (hc : c ∈ record) : strip c = c := by
  obtain ⟨fields, -, rfl⟩ := List.mem_map.mp hr
  obtain ⟨f, -, rfl⟩ := List.mem_map.mp hc
  exact strip_strip _

/-- The cells of a column are trimmed. -/
theorem strip_of_mem_column {i : Nat} (h : cells text = headers :: records)
    (hfull : ∀ record ∈ records, record.length = headers.length) (hi : i < headers.length) :
    ∀ s ∈ column i records, strip s = s := by
  intro s hs
  obtain ⟨record, hr, rfl⟩ := List.mem_map.mp hs
  have hlength := hfull record hr
  have hrecord : record ∈ cells text := h ▸ List.mem_cons_of_mem headers hr
  have hcell : record[i]? = some record[i] := List.getElem?_eq_getElem (by omega)
  rw [List.getD_eq_getElem?_getD, hcell, Option.getD_some]
  exact strip_of_mem_cells hrecord (List.mem_of_getElem? hcell)

/-! ## Rows -/

/-- Under a header that no other has, a row holds what is inferred from its cell. -/
theorem value_row {cells : List String} {i : Nat} {name : String}
    (hp : headers.Pairwise fun a b => fold a ≠ fold b) (hname : headers[i]? = some name)
    (hlength : cells.length = headers.length) :
    (row entity headers cells).value name = Value.infer (cells.getD i "") := by
  induction headers generalizing cells i with
  | nil => cases hname
  | cons header headers ih =>
    obtain ⟨hfirst, hrest⟩ := List.pairwise_cons.mp hp
    cases cells with
    | nil => cases hlength
    | cons c cells =>
      cases i with
      | zero =>
        obtain rfl : header = name := Option.some.inj hname
        simp [row, Row.ofPairs, Row.value, Row.field?, sameFolded_refl]
      | succ i =>
        have hother : sameFolded header name = false := by
          rw [Bool.eq_false_iff, Ne, sameFolded_iff]
          exact hfirst name (List.mem_of_getElem? hname)
        have htail := ih hrest hname (Nat.succ.inj hlength)
        simp only [row, Row.ofPairs, Row.value, Row.field?] at htail ⊢
        rw [List.map_cons, List.zip_cons_cons, List.map_cons, List.find?_cons, hother]
        exact htail

end CsvTable

namespace SortOrder

variable {o : SortOrder} {c : SortColumn}

/-- A distinct column makes an ordering by itself. -/
theorem ofColumns_singleton (hname : c.name ≠ "") (hdistinct : c.distinct = true) :
    ∃ o, ofColumns [c] = .ok o ∧ o.columns = [c] ∧ o.key = [c] := by
  have hsound : defect? [c] = none := by
    have hempty : c.name.isEmpty = false := by
      rw [Bool.eq_false_iff, Ne, String.isEmpty_iff]
      exact hname
    simp [defect?, nameDefect?, hempty, hdistinct]
  refine ⟨⟨[c], hsound⟩, ofColumns_eq_ok_iff.mpr rfl, rfl, ?_⟩
  rw [key, upToDistinct, if_pos hdistinct]

theorem compareRows_singleton (hkey : o.key = [c]) (a b : Row) :
    o.compareRows a b = c.order (a.value c.name) (b.value c.name) := by
  rw [compareRows_eq, hkey, lexicographic_cons]
  cases c.order (a.value c.name) (b.value c.name) <;> rfl

end SortOrder

namespace CsvTable

variable {entity text : String} {headers : List String} {records : List (List String)}

/-- Rows are apart by a column exactly if the values inferred from its cells are. -/
theorem apart_iff {o : SortOrder} {c : SortColumn} {i : Nat} (hkey : o.key = [c])
    (hp : headers.Pairwise fun a b => fold a ≠ fold b) (hname : headers[i]? = some c.name)
    (hfull : ∀ record ∈ records, record.length = headers.length)
    (hthere : ∀ s ∈ column i records, (Value.infer s).isNull = false) :
    o.Apart (records.map (row entity headers)) ↔
      (column i records).Pairwise fun a b => (Value.infer a).order (Value.infer b) ≠ .eq := by
  rw [SortOrder.Apart, List.pairwise_map, column, List.pairwise_map]
  refine List.Pairwise.iff_of_mem fun {a b} ha hb => not_congr ?_
  rw [SortOrder.compareRows_singleton hkey, value_row hp hname (hfull a ha),
    value_row hp hname (hfull b hb)]
  rw [SortColumn.order_eq_iff, hthere _ (List.mem_map_of_mem ha)]
  simp

/-- **When the walks by a column cover a CSV file.** Take a text whose header names differ, case
ignored, whose records are all as long as the header, and a column with a name and without empty
cells. The text is read as the table of all its records, none left out, and the column orders it in
either direction. From the first page on, walks with pages of any size that leaves room for one row
more end without an error and return every row once, exactly if no two of the values inferred from
the cells of the column compare equal. -/
theorem walks_cover_iff (entity text : String) (headers : List String)
    (records : List (List String)) (i : Nat) (c : SortColumn)
    (read_as : cells text = headers :: records)
    (apart : headers.Pairwise fun a b => fold a ≠ fold b)
    (full : ∀ record ∈ records, record.length = headers.length)
    (header : headers[i]? = some c.name) (named : c.name ≠ "") (distinct : c.distinct = true)
    (filled : ∀ s ∈ column i records, s ≠ "") :
    ∃ csv o, read entity (Utf8.encode text.toList) = ([], .ok csv) ∧ csv.headers = headers ∧
      csv.table.rows = records.map (row entity headers) ∧
      SortOrder.ofColumns [c] = .ok o ∧
      (((column i records).Pairwise fun a b => (Value.infer a).order (Value.infer b) ≠ .eq) ↔
        ∀ page : Page, page.order = o → page.position = none → page.Sized →
          Reader.Covers page csv.table) := by
  obtain ⟨o, ho, hcolumns, hkey⟩ := SortOrder.ofColumns_singleton named distinct
  refine ⟨_, o, read_eq read_as full, rfl, rfl, ho, ?_⟩
  have hi : i < headers.length := (List.getElem?_eq_some_iff.mp header).1
  have hthere : ∀ s ∈ column i records, (Value.infer s).isNull = false := by
    intro s hs
    refine Value.isNull_infer ?_
    rw [strip_of_mem_column read_as full hi s hs]
    exact filled s hs
  have htrimmed : o.Trimmed := by
    intro d hd
    rw [hcolumns, List.mem_singleton] at hd
    rw [hd]
    have hheaders : headers ∈ cells text := read_as ▸ List.mem_cons_self
    exact strip_of_mem_cells hheaders (List.mem_of_getElem? header)
  have hcomplete : ∀ r ∈ records.map (row entity headers), o.Complete r := by
    intro r hr d hd _
    obtain ⟨record, hrecord, rfl⟩ := List.mem_map.mp hr
    rw [hkey, List.mem_singleton] at hd
    rw [hd, value_row apart header (full record hrecord)]
    exact hthere _ (List.mem_map_of_mem hrecord)
  rw [← apart_iff hkey apart header full hthere]
  exact Reader.apart_iff_covers (t := ⟨entity, records.map (row entity headers)⟩) htrimmed hcomplete

end CsvTable

namespace Post

/-- An ascending column that tells rows apart. -/
def distinctColumn (name : String) : SortColumn := ⟨name, .ascending, false, true, none⟩

/-- Posts with codes of several kinds. -/
def mixedCodes : String := "code,title\n7,a\n abc ,b\n2024-01-01,c\n7.5,d\n"

/-- Codes of several kinds are covered. -/
theorem mixed_codes_covered : ∃ csv o,
    CsvTable.read "posts" (Utf8.encode mixedCodes.toList) = ([], .ok csv) ∧
    csv.table.rows.length = 4 ∧ SortOrder.ofColumns [distinctColumn "code"] = .ok o ∧
    Reader.Covers ((Page.first o).withSize 2) csv.table := by
  have hcells : CsvTable.cells mixedCodes = ["code", "title"] ::
      [["7", "a"], ["abc", "b"], ["2024-01-01", "c"], ["7.5", "d"]] := by cbv
  obtain ⟨csv, o, hread, -, hrows, ho, hcovers⟩ := CsvTable.walks_cover_iff "posts" mixedCodes _ _ 0
    (distinctColumn "code") hcells (by decide) (by decide) rfl (by decide) rfl (by decide)
  have htwo : ((Page.first o).withSize 2).size.toNat = 2 := rfl
  refine ⟨csv, o, hread, by rw [hrows]; rfl, ho, hcovers.mp ?_ _ rfl rfl ?_⟩
  · decide
  · rw [Page.Sized, htwo]
    decide

/-- Two posts whose codes are one number. -/
def collidingCodes : String := "code,title\n1,a\n01,b\n"

def byCode : SortOrder := ⟨[distinctColumn "code"], by decide⟩

/-- The table of the two. -/
def collided : MemoryTable :=
  ⟨"posts", [.ofPairs "posts" [("code", .int 1), ("title", .string "a")],
    .ofPairs "posts" [("code", .int 1), ("title", .string "b")]]⟩

/-- Two codes that differ as texts are one number, and a walk with pages of one row does not return
both rows. -/
theorem codes_collide :
    CsvTable.cells collidingCodes = [["code", "title"], ["1", "a"], ["01", "b"]] ∧
    ((CsvTable.column 0 [["1", "a"], ["01", "b"]]).Pairwise fun a b => a ≠ b) ∧
    SortOrder.ofColumns [distinctColumn "code"] = .ok byCode ∧
    CsvTable.read "posts" (Utf8.encode collidingCodes.toList) =
      ([], .ok ⟨["code", "title"], collided⟩) ∧
    ¬ Reader.Covers ((Page.first byCode).withSize 1) collided := by
  have hcells : CsvTable.cells collidingCodes = [["code", "title"], ["1", "a"], ["01", "b"]] := by
    cbv
  have hread : CsvTable.read "posts" (Utf8.encode collidingCodes.toList) =
      ([], .ok ⟨["code", "title"], collided⟩) := by
    rw [CsvTable.read_eq hcells (by decide)]
    rfl
  have hplaced : ((Page.first byCode).withSize 1).WellPlaced :=
    Page.Sized.wellPlaced (by decide) (by decide) rfl
  refine ⟨hcells, by decide, rfl, hread, fun hcovers => ?_⟩
  have hapart := Reader.apart_of_covers hplaced rfl hcovers
  revert hapart
  decide

end Post

end Keyset
