import Keyset.Cursor.Basic

/-! # Names of sort columns

Names are compared up to letter case and, on one side, up to the blanks around
them; positions keep both away from the names they hold values for. The two
agree on an ordering whose names are trimmed: each key column answers to the
name it has in a position, and no two have the same one. -/

namespace Keyset

namespace Text

theorem toNat_toLower (c : Char) : c.toLower.toNat =
    if 65 ≤ c.toNat ∧ c.toNat ≤ 90 then c.toNat + 32 else c.toNat := by
  have hiff : (c.val ≥ 'A'.val ∧ c.val ≤ 'Z'.val) ↔ 65 ≤ c.toNat ∧ c.toNat ≤ 90 := by
    simp only [ge_iff_le, UInt32.le_iff_toNat_le]; rfl
  unfold Char.toLower
  split
  · rename_i h
    have hc : c.val.toNat = c.toNat := rfl
    have h' := hiff.mp h
    rw [if_pos h']
    show (c.val + ('a'.val - 'A'.val)).toNat = _
    rw [UInt32.toNat_add, show ('a'.val - 'A'.val : UInt32).toNat = 32 from rfl]
    omega
  · rename_i h
    rw [if_neg fun h' => h (hiff.mpr h')]

theorem toLower_toLower (c : Char) : c.toLower.toLower = c.toLower := by
  apply Char.toNat_inj.mp
  rw [toNat_toLower c.toLower, toNat_toLower c]
  split
  · rw [if_neg (by omega)]
  · rfl

theorem isBlank_toLower (c : Char) : isBlank c.toLower = isBlank c := by
  simp only [isBlank, blankRanges, toNat_toLower, List.any_cons, List.any_nil]
  split
  · grind
  · rfl

theorem fold_fold (s : String) : fold (fold s) = fold s := by
  have hc : Char.toLower ∘ Char.toLower = Char.toLower := funext toLower_toLower
  simp [fold, hc]

theorem trim_map_toLower (cs : List Char) :
    trim (cs.map Char.toLower) = (trim cs).map Char.toLower := by
  have hc : isBlank ∘ Char.toLower = isBlank := funext isBlank_toLower
  simp only [trim, trimEnd, trimStart, List.dropWhile_map, hc, ← List.map_reverse]

theorem strip_fold (s : String) : strip (fold s) = fold (strip s) := by
  simp [strip, fold, trim_map_toLower]

end Text

open Text

namespace SortOrder

/-- No name has blanks around it. -/
def Trimmed (o : SortOrder) : Prop := ∀ c ∈ o.columns, strip c.name = c.name

instance (o : SortOrder) : Decidable o.Trimmed :=
  inferInstanceAs (Decidable (∀ c ∈ o.columns, strip c.name = c.name))

theorem upToDistinct_sublist (cs : List SortColumn) : (upToDistinct cs).Sublist cs := by
  induction cs with
  | nil => exact List.Sublist.slnil
  | cons c cs ih =>
    unfold upToDistinct
    split
    · exact (List.nil_sublist cs).cons_cons c
    · exact ih.cons_cons c

theorem mem_columns_of_mem_key {o : SortOrder} {c : SortColumn} (h : c ∈ o.key) :
    c ∈ o.columns := (upToDistinct_sublist o.columns).subset h

theorem key_ne_nil (o : SortOrder) : o.key ≠ [] := by
  have hs := o.sound
  unfold key
  cases hc : o.columns with
  | nil => rw [hc] at hs; cases hs
  | cons c cs => unfold upToDistinct; split <;> simp

/-- A column is not named as any that stands before it. -/
theorem nameDefect?_eq_none {earlier cs : List SortColumn} (h : nameDefect? earlier cs = none) :
    cs.Pairwise (fun a b => a.answersTo b.name = false) ∧
      ∀ c ∈ cs, ∀ a ∈ earlier, a.answersTo c.name = false := by
  induction cs generalizing earlier with
  | nil => simp
  | cons c cs ih =>
    simp only [nameDefect?] at h
    split at h
    · cases h
    · split at h
      · cases h
      · rename_i htaken
        obtain ⟨hcs, hearlier⟩ := ih h
        have hc : ∀ a ∈ earlier, a.answersTo c.name = false := by simpa using htaken
        refine ⟨List.pairwise_cons.mpr ⟨fun d hd => hearlier d hd c (by simp), hcs⟩, ?_⟩
        intro d hd a ha
        rcases List.mem_cons.mp hd with rfl | hd
        · exact hc a ha
        · exact hearlier d hd a (by simp [ha])

theorem columns_pairwise (o : SortOrder) :
    o.columns.Pairwise fun a b => a.answersTo b.name = false := by
  have hs := o.sound
  unfold defect? at hs
  split at hs
  · cases hs
  · cases hn : nameDefect? [] o.columns with
    | none => exact (nameDefect?_eq_none hn).1
    | some e => rw [hn] at hs; cases hs

end SortOrder

/-! ## Names in positions -/

namespace Cursor

theorem keyName_of_trimmed {name : String} (h : strip name = name) : keyName name = fold name := by
  rw [keyName, h]

theorem answersTo_keyName {c : SortColumn} (h : strip c.name = c.name) :
    c.answersTo (keyName c.name) = true := by
  rw [SortColumn.answersTo, sameFolded_iff, keyName_of_trimmed h, strip_fold, fold_fold, h]

/-- In a position no two columns would share a name. -/
theorem columns_pairwise {o : SortOrder} (h : o.Trimmed) :
    o.columns.Pairwise fun a b => keyName a.name ≠ keyName b.name := by
  refine o.columns_pairwise.imp_of_mem fun {a b} ha _ hab heq => ?_
  have hn : a.answersTo b.name = true := by
    rw [SortColumn.answersTo, sameFolded_iff, ← keyName_of_trimmed (h a ha), heq, keyName]
  rw [hab] at hn
  cases hn

theorem key_pairwise {o : SortOrder} (h : o.Trimmed) :
    o.key.Pairwise fun a b => keyName a.name ≠ keyName b.name :=
  (columns_pairwise h).sublist (SortOrder.upToDistinct_sublist o.columns)

theorem keyPlace?_isSome {o : SortOrder} (h : o.Trimmed) {c : SortColumn} (hc : c ∈ o.key) :
    (o.keyPlace? (keyName c.name)).isSome = true := by
  rw [SortOrder.keyPlace?, List.findIdx?_isSome]
  exact List.any_eq_true.mpr
    ⟨c, hc, answersTo_keyName (h c (SortOrder.mem_columns_of_mem_key hc))⟩

end Cursor

end Keyset
