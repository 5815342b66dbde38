import Keyset.Proofs.Order.Names
import Keyset.Proofs.Text.Blank

/-! # Columns are found by their names

A look-up trims the name that it is given, but not the names of the columns. So
it finds a column by its own name, or by the one that it has in positions,
exactly if its name is trimmed (`keyPlace?_eq_some_iff`,
`column?_eq_some_iff`). Trimmed names stay apart in positions, and none of them
is empty there. -/

namespace Keyset

namespace Text

theorem length_fold (s : String) : (fold s).toList.length = s.toList.length := by
  rw [fold, String.toList_ofList, List.length_map]

/-- Trimming is seen up to letter case, since it makes a text shorter. -/
theorem fold_strip_eq_iff {s : String} : fold (strip s) = fold s ↔ strip s = s := by
  constructor
  · intro h
    have hlength := congrArg (fun t => t.toList.length) h
    simp only [length_fold] at hlength
    have hsame : (strip s).toList = s.toList := by
      rw [strip, String.toList_ofList] at hlength ⊢
      exact (trim_sublist s.toList).eq_of_length hlength
    exact String.toList_inj.mp hsame
  · intro h
    rw [h]

end Text

open Text

namespace Cursor

theorem strip_keyName (name : String) : strip (keyName name) = keyName name := by
  rw [keyName, strip_fold, strip_strip]

theorem keyName_keyName (name : String) : keyName (keyName name) = keyName name := by
  have h := strip_keyName name
  rw [keyName, h, keyName, fold_fold]

theorem keyName_ne_empty {name : String} (h : strip name = name) (hne : name ≠ "") :
    keyName name ≠ "" := by
  intro hempty
  rw [keyName_of_trimmed h] at hempty
  have hlength := length_fold name
  rw [hempty] at hlength
  exact hne (String.toList_inj.mp (List.length_eq_zero_iff.mp hlength.symm))

end Cursor

open Cursor (keyName)

namespace SortColumn

variable {c : SortColumn} {name : String}

theorem answersTo_iff : c.answersTo name = true ↔ fold c.name = keyName name := sameFolded_iff

theorem answersTo_keyName (c : SortColumn) (name : String) :
    c.answersTo (keyName name) = c.answersTo name := by
  rw [Bool.eq_iff_iff, answersTo_iff, answersTo_iff, Cursor.keyName_keyName]

theorem answersTo_self_iff : c.answersTo c.name = true ↔ strip c.name = c.name := by
  rw [answersTo_iff, keyName, eq_comm, fold_strip_eq_iff]

/-- What answers to a name is kept under that name in positions. -/
theorem keyName_of_answersTo (h : c.answersTo name = true) : keyName c.name = keyName name := by
  rw [answersTo_iff] at h
  rw [keyName, ← strip_fold, h, Cursor.strip_keyName]

end SortColumn

namespace SortOrder

variable {o : SortOrder} {c : SortColumn}

theorem keyPlace?_keyName (o : SortOrder) (name : String) :
    o.keyPlace? (keyName name) = o.keyPlace? name := by
  simp only [keyPlace?, SortColumn.answersTo_keyName]

theorem column?_keyName (o : SortOrder) (name : String) :
    o.column? (keyName name) = o.column? name := by
  simp only [column?, SortColumn.answersTo_keyName]

theorem keyPlace?_isSome_iff {name : String} :
    (o.keyPlace? name).isSome = true ↔ ∃ c ∈ o.key, c.answersTo name = true := by
  rw [keyPlace?, List.findIdx?_isSome, List.any_eq_true]

/-! ## A column and its own name -/

theorem nameDefect?_eq_none_ne_empty {earlier cs : List SortColumn}
    (h : nameDefect? earlier cs = none) : ∀ c ∈ cs, c.name ≠ "" := by
  induction cs generalizing earlier with
  | nil => simp
  | cons c cs ih =>
    simp only [nameDefect?] at h
    split at h
    · cases h
    · rename_i hne
      split at h
      · cases h
      · refine List.forall_mem_cons.mpr ⟨fun hempty => hne ?_, ih h⟩
        rw [hempty]
        rfl

theorem name_ne_empty (o : SortOrder) : ∀ c ∈ o.columns, c.name ≠ "" := by
  have hs := o.sound
  unfold defect? at hs
  split at hs
  · cases hs
  · exact nameDefect?_eq_none_ne_empty (Option.or_eq_none_iff.mp hs).1

/-- A key column is found by its name exactly if the name is trimmed; no column that stands before
it answers to the name. -/
theorem keyPlace?_eq_some_iff {i : Nat} (h : o.key[i]? = some c) :
    o.keyPlace? c.name = some i ↔ strip c.name = c.name := by
  obtain ⟨hi, rfl⟩ := List.getElem?_eq_some_iff.mp h
  have hp : o.key.Pairwise fun a b => a.answersTo b.name = false :=
    o.columns_pairwise.sublist (upToDistinct_sublist o.columns)
  rw [← SortColumn.answersTo_self_iff, keyPlace?, List.findIdx?_eq_some_iff_getElem]
  constructor
  · rintro ⟨_, hself, -⟩
    exact hself
  · intro hself
    refine ⟨hi, hself, fun j hji => ?_⟩
    rw [List.pairwise_iff_getElem.mp hp j i (Nat.lt_trans hji hi) hi hji]
    exact Bool.false_ne_true

theorem column?_eq_some_iff (h : c ∈ o.columns) :
    o.column? c.name = some c ↔ strip c.name = c.name := by
  rw [← SortColumn.answersTo_self_iff, column?, List.find?_eq_some_iff_append]
  constructor
  · rintro ⟨hself, -⟩
    exact hself
  · intro hself
    obtain ⟨before, after, hsplit⟩ := List.append_of_mem h
    have hp := o.columns_pairwise
    rw [hsplit, List.pairwise_append] at hp
    refine ⟨hself, before, after, hsplit, fun d hd => ?_⟩
    rw [hp.2.2 d hd c (by simp)]
    rfl

end SortOrder

end Keyset
