import Keyset.Order.Json
import Keyset.Proofs.Cursor.Position
import Keyset.Proofs.Order.Lookup
import Mathlib.Data.List.Nodup
import Mathlib.Data.List.Perm.Basic

/-! # The names in a cursor

A cursor that is made here has each name once and in one spelling
(`Canonical`). The position of a row has one for each key column, unless two
columns go by one name in it. With trimmed names an ordering has no such columns,
finds each key column by its name and fits the position of every row
(`names_found`). Names with blanks around them are accepted as well, and for
these all of this fails (`Post.padded_names_collide`). -/

namespace Keyset

open Text

namespace Dictionary

variable {α : Type}

theorem length_names (d : Dictionary α) : d.names.length = d.size := List.length_map _

theorem names_nodup (d : Dictionary α) : d.names.Nodup := by
  refine List.pairwise_map.mpr (d.ascending.imp fun {a b} hlt heq => ?_)
  rw [heq, Std.compare_self] at hlt
  cases hlt

theorem mem_names_iff {d : Dictionary α} {n : String} :
    n ∈ d.names ↔ (d.find? n).isSome = true := by
  rw [Option.isSome_iff_exists]
  constructor
  · intro h
    obtain ⟨⟨_, a⟩, he, rfl⟩ := List.mem_map.mp h
    exact ⟨a, find?_eq_some_iff.mpr he⟩
  · rintro ⟨a, ha⟩
    exact List.mem_map_of_mem (find?_eq_some_iff.mp ha)

theorem mem_names_insert {d : Dictionary α} {name n : String} {a : α} :
    n ∈ (d.insert name a).names ↔ n = name ∨ n ∈ d.names := by
  rw [mem_names_iff, mem_names_iff, find?_insert]
  by_cases h : n = name <;> simp [h]

theorem mem_names_foldl {es : List (String × α)} {d : Dictionary α} {n : String}
    (h : n ∈ (es.foldl (fun d e => d.insert e.1 e.2) d).names) :
    n ∈ d.names ∨ n ∈ es.map (·.1) := by
  induction es generalizing d with
  | nil => exact Or.inl h
  | cons e es ih =>
    rw [List.map_cons, List.mem_cons]
    rcases ih h with h | h
    · rcases mem_names_insert.mp h with rfl | h
      · exact Or.inr (Or.inl rfl)
      · exact Or.inl h
    · exact Or.inr (Or.inr h)

theorem mem_names_ofList {es : List (String × α)} {n : String} (h : n ∈ (ofList es).names) :
    n ∈ es.map (·.1) :=
  (mem_names_foldl h).resolve_left List.not_mem_nil

end Dictionary

namespace Cursor

variable {c : Cursor} {o : SortOrder} {row : Row}

theorem sets_iff {column : SortColumn} :
    c.sets column = true ↔ keyName column.name ∈ c.values.names := by
  rw [sets, find?, Dictionary.mem_names_iff]

/-- Every name is spelled as names are in positions. -/
def Canonical (c : Cursor) : Prop := ∀ name ∈ c.values.names, keyName name = name

instance (c : Cursor) : Decidable c.Canonical :=
  inferInstanceAs (Decidable (∀ name ∈ c.values.names, keyName name = name))

theorem canonical_ofPairs (pairs : List (String × Value)) : (ofPairs pairs).Canonical := by
  intro name h
  have hname := Dictionary.mem_names_ofList h
  rw [List.map_map] at hname
  obtain ⟨⟨n, v⟩, -, rfl⟩ := List.mem_map.mp hname
  exact keyName_keyName n

theorem canonical_ofRow (h : ofRow o row = .ok c) : c.Canonical := by
  intro name hm
  obtain ⟨column, -, rfl⟩ := keyName_of_mem_names h hm
  exact keyName_keyName column.name

/-! ## Positions of rows -/

theorem mem_names_of_ofColumns {cs : List SortColumn} {values : Dictionary Value}
    (h : ofColumns row cs values = .ok c) :
    ∀ column ∈ cs, keyName column.name ∈ c.values.names := by
  induction cs generalizing values with
  | nil => simp
  | cons column cs ih =>
    have hcs := (ofColumns_cons h).2
    refine List.forall_mem_cons.mpr ⟨Dictionary.mem_names_iff.mpr ?_, ih hcs⟩
    refine ofColumns_find?_isSome hcs ?_
    rw [Dictionary.find?_insert, if_pos rfl]
    rfl

theorem mem_names_ofRow (h : ofRow o row = .ok c) {n : String} :
    n ∈ c.values.names ↔ n ∈ o.key.map fun column => keyName column.name := by
  rw [List.mem_map]
  constructor
  · exact keyName_of_mem_names h
  · rintro ⟨column, hc, rfl⟩
    exact mem_names_of_ofColumns h column hc

/-- A position has as many names as there are key columns exactly if no two of them share one. -/
theorem size_ofRow_iff (h : ofRow o row = .ok c) :
    c.size = o.key.length ↔ (o.key.map fun column => keyName column.name).Nodup := by
  have hlength : c.values.names.length = c.size := c.values.length_names
  constructor
  · intro hsize
    have hsub : c.values.names.Subperm (o.key.map fun column => keyName column.name) :=
      List.subperm_of_subset c.values.names_nodup fun _ hm => (mem_names_ofRow h).mp hm
    have hle : (o.key.map fun column => keyName column.name).length ≤ c.values.names.length := by
      rw [List.length_map, hlength, hsize]
    exact (hsub.perm_of_length_le hle).nodup c.values.names_nodup
  · intro hnodup
    have hperm := (List.perm_ext_iff_of_nodup c.values.names_nodup hnodup).mpr
      fun _ => mem_names_ofRow h
    rw [← hlength, hperm.length_eq, List.length_map]

/-- What fits an ordering has only names that the ordering finds. -/
theorem keyPlace?_of_fit {k : Nat} (h : c.fit o = .ok k) :
    ∀ name ∈ c.values.names, (o.keyPlace? name).isSome = true := by
  intro name hm
  unfold fit at h
  split at h
  · cases h
  · rename_i hknown
    have hsome := List.find?_eq_none.mp hknown name hm
    rwa [Bool.not_eq_true, Option.isNone_eq_false_iff] at hsome

/-- Only an ordering whose key has trimmed names fits a position in full. -/
theorem trimmed_of_fit_ofRow (h : ofRow o row = .ok c) (hsize : c.size = o.key.length) {k : Nat}
    (hfit : c.fit o = .ok k) : ∀ column ∈ o.key, strip column.name = column.name := by
  intro column hc
  have hname : keyName column.name ∈ c.values.names := mem_names_of_ofColumns h column hc
  have hfound := keyPlace?_of_fit hfit _ hname
  rw [SortOrder.keyPlace?_keyName, SortOrder.keyPlace?_isSome_iff] at hfound
  obtain ⟨d, hd, hanswers⟩ := hfound
  -- the column that answers has the same name in the position, and so is the column
  have hsame : d = column := List.inj_on_of_nodup_map ((size_ofRow_iff h).mp hsize) hd hc
    (SortColumn.keyName_of_answersTo hanswers)
  rw [hsame] at hanswers
  exact SortColumn.answersTo_self_iff.mp hanswers

end Cursor

namespace SortOrder

open Cursor (keyName)

variable {o : SortOrder}

/-- An ordering is made of exactly the columns that it has. -/
theorem ofColumns_eq_ok_iff {columns : List SortColumn} :
    ofColumns columns = .ok o ↔ columns = o.columns := by
  unfold ofColumns
  split
  · rename_i hsound
    rw [Except.ok.injEq]
    exact ⟨fun h => by rw [← h], fun h => ext_columns h⟩
  · rename_i e hdefect
    refine ⟨fun h => ?_, fun h => ?_⟩
    · cases h
    · rw [h, o.sound] at hdefect
      cases hdefect

theorem ofDocument?_eq_some_iff {d : Json.Document} :
    ofDocument? d = some o ↔ d.list? SortColumn.ofDocument? = some o.columns := by
  cases hd : d.list? SortColumn.ofDocument? with
  | none => simp [ofDocument?, hd]
  | some columns =>
    rw [Option.some.injEq, ← ofColumns_eq_ok_iff]
    cases hc : ofColumns columns <;> simp [ofDocument?, hd, hc]

/-- **What an ordering makes of its names.** An ordering is made of any columns without a defect,
given as a list or read as one. If their names are trimmed, the names that positions have for them
are not empty and pairwise different, and the position of a row has one for each key column and
fits the ordering in full. A key column is found by its name, and by the one that positions have,
exactly if its name is trimmed. No position of a row has a name for each key column and fits,
unless the key columns have trimmed names. -/
theorem names_found (o : SortOrder) :
    (∀ columns, ofColumns columns = .ok o ↔ columns = o.columns) ∧
    (∀ d, ofDocument? d = some o ↔ d.list? SortColumn.ofDocument? = some o.columns) ∧
    (o.Trimmed → (∀ c ∈ o.columns, keyName c.name ≠ "") ∧
      (o.columns.Pairwise fun a b => keyName a.name ≠ keyName b.name) ∧
      ∀ row cursor, Cursor.ofRow o row = .ok cursor →
        cursor.size = o.key.length ∧ cursor.fit o = .ok o.key.length) ∧
    (∀ i c, o.key[i]? = some c → ∀ name, name = c.name ∨ name = keyName c.name →
      (o.keyPlace? name = some i ↔ strip c.name = c.name) ∧
      (o.column? name = some c ↔ strip c.name = c.name)) ∧
    ∀ row cursor k, Cursor.ofRow o row = .ok cursor → cursor.size = o.key.length →
      cursor.fit o = .ok k → ∀ c ∈ o.key, strip c.name = c.name := by
  refine ⟨fun _ => ofColumns_eq_ok_iff, fun _ => ofDocument?_eq_some_iff, fun trimmed => ?_,
    fun i c hc name hname => ?_, fun row cursor k h hsize hfit =>
      Cursor.trimmed_of_fit_ofRow h hsize hfit⟩
  · refine ⟨fun c hc => Cursor.keyName_ne_empty (trimmed c hc) (o.name_ne_empty c hc),
      Cursor.columns_pairwise trimmed, fun row cursor h => ⟨?_, Cursor.fit_ofRow trimmed h⟩⟩
    exact (Cursor.size_ofRow_iff h).mpr (List.pairwise_map.mpr (Cursor.key_pairwise trimmed))
  · have hmem : c ∈ o.columns := mem_columns_of_mem_key (List.mem_of_getElem? hc)
    rcases hname with rfl | rfl
    · exact ⟨keyPlace?_eq_some_iff hc, column?_eq_some_iff hmem⟩
    · rw [keyPlace?_keyName, column?_keyName]
      exact ⟨keyPlace?_eq_some_iff hc, column?_eq_some_iff hmem⟩

end SortOrder

namespace Post

/-- Posts by score and id, in names with capitals. -/
def capitals : SortOrder :=
  ⟨[⟨"Score", .descending, true, false, none⟩, ⟨"ID", .ascending, false, true, none⟩,
    ⟨"Title", .ascending, false, false, none⟩], by decide⟩

/-- Names with capitals are found in both spellings, and a post without a score has its position. -/
theorem capitals_found : capitals.Trimmed ∧
    capitals.key[1]? = some ⟨"ID", .ascending, false, true, none⟩ ∧
    capitals.keyPlace? "ID" = some 1 ∧ capitals.keyPlace? "id" = some 1 ∧
    ∃ cursor, Cursor.ofRow capitals (.ofPairs "posts" [("id", .int 7)]) = .ok cursor ∧
      cursor.size = 2 ∧ cursor.fit capitals = .ok 2 := by
  have htrimmed : capitals.Trimmed := by decide
  have hid : capitals.key[1]? = some ⟨"ID", .ascending, false, true, none⟩ := by decide
  obtain ⟨-, -, hrows, hplaces, -⟩ := SortOrder.names_found capitals
  obtain ⟨-, -, hposition⟩ := hrows htrimmed
  have hplace (name : String) (hname : name = "ID" ∨ name = Cursor.keyName "ID") :
      capitals.keyPlace? name = some 1 := (hplaces 1 _ hid name hname).1.mpr (by decide)
  obtain ⟨cursor, hcursor⟩ : ∃ cursor, Cursor.ofRow capitals (.ofPairs "posts" [("id", .int 7)]) =
      .ok cursor := ⟨_, rfl⟩
  exact ⟨htrimmed, hid, hplace "ID" (Or.inl rfl), hplace "id" (Or.inr (by decide)), cursor, hcursor,
    hposition _ cursor hcursor⟩

def paddedId (distinct : Bool) : SortColumn := ⟨" id", .ascending, false, distinct, none⟩

def plainId (distinct : Bool) : SortColumn := ⟨"id", .ascending, false, distinct, none⟩

/-- Two key columns, the first of them with a blank before its name. -/
def padded : SortOrder := ⟨[paddedId false, plainId true], by decide⟩

/-- Two columns whose names differ by a blank are accepted in one order and refused in the other.
If accepted they share a name in positions, the position of a row has one value for the two, and
the name of the first finds the second. -/
theorem padded_names_collide :
    SortOrder.ofColumns [paddedId false, plainId true] = .ok padded ∧
    SortOrder.ofColumns [plainId false, paddedId true] = .error (.duplicate " id") ∧
    Cursor.keyName (paddedId false).name = Cursor.keyName (plainId true).name ∧
    padded.keyPlace? (paddedId false).name = some 1 ∧ padded.key.length = 2 ∧
    ∃ cursor, Cursor.ofRow padded (.ofPairs "posts" [(" id", .int 1), ("id", .int 2)]) =
      .ok cursor ∧ cursor.size = 1 :=
  ⟨rfl, rfl, by decide, by decide, by decide, _, rfl, by decide⟩

end Post

end Keyset
