import Keyset.Proofs.Condition.Seek
import Keyset.Proofs.Cursor.Names

/-! # What fits, exactly

A cursor fits an ordering as far as it sets the leading key columns, if it sets
no other, its names are all found and null stands only where it may
(`fit_eq_ok_iff`). The names are found in any spelling, but only the one that
positions have sets a column. So what a cursor is taken to set are its names in
this spelling, and the others are passed over (`fit_eq_ok_iff_canonicalNames`).
A cursor whose names all have it fits as far as it is long. -/

namespace Keyset.Cursor

variable {c : Cursor} {o : SortOrder}

/-- The cursor holds null only in columns that may be null. -/
def NullsAllowed (c : Cursor) (columns : List SortColumn) : Prop :=
  ∀ column ∈ columns, c.find? column.name = some .null → column.nullable = true

instance (c : Cursor) (columns : List SortColumn) : Decidable (c.NullsAllowed columns) :=
  inferInstanceAs (Decidable (∀ column ∈ columns, _ → _))

/-! ## The checks -/

theorem fit_nulls_eq_ok_iff {k : Nat} : fit.nulls c o = .ok k ↔
    k = (c.leading o.key).length ∧ c.NullsAllowed (c.leading o.key) := by
  simp only [fit.nulls]
  split
  · rename_i column hfind
    have hbad := List.find?_some hfind
    have hmem := List.mem_of_find?_eq_some hfind
    rw [Bool.and_eq_true, decide_eq_true_eq, Bool.not_eq_true'] at hbad
    refine ⟨fun h => ?_, fun h => ?_⟩
    · cases h
    · exact absurd (h.2 column hmem hbad.2) (by rw [hbad.1]; exact Bool.false_ne_true)
  · rename_i hfind
    rw [Except.ok.injEq, eq_comm]
    refine (and_iff_left fun column hc hnull => ?_).symm
    simpa [hnull] using List.find?_eq_none.mp hfind column hc

theorem fit_eq_ok_iff_leading {k : Nat} : c.fit o = .ok k ↔
    (∀ name ∈ c.values.names, (o.keyPlace? name).isSome = true) ∧
      (∀ column ∈ o.key.dropWhile c.sets, c.sets column = false) ∧
      k = (c.leading o.key).length ∧ c.NullsAllowed (c.leading o.key) := by
  unfold fit
  split
  · -- a name of no key column
    rename_i name hfind
    have hunknown := List.find?_some hfind
    refine ⟨fun h => ?_, fun h => ?_⟩
    · cases h
    · rw [Option.isNone_iff_eq_none] at hunknown
      have hknown := h.1 name (List.mem_of_find?_eq_some hfind)
      rw [hunknown] at hknown
      cases hknown
  · rename_i hfind
    have hknown : ∀ name ∈ c.values.names, (o.keyPlace? name).isSome = true := fun name hm => by
      have hsome := List.find?_eq_none.mp hfind name hm
      rwa [Bool.not_eq_true, Option.isNone_eq_false_iff] at hsome
    rw [and_iff_right hknown]
    split
    · rename_i missing rest hdrop
      have hne : o.key.dropWhile c.sets ≠ [] := by rw [hdrop]; exact List.cons_ne_nil _ _
      have hmissing : c.sets missing = false := by
        have hhead := List.head_dropWhile_not c.sets hne
        simpa [hdrop] using hhead
      rw [hdrop]
      split
      · -- a column that is set behind one that is not
        rename_i column hgap
        refine ⟨fun h => ?_, fun h => ?_⟩
        · cases h
        · have hunset := h.1 column (List.mem_cons_of_mem _ (List.mem_of_find?_eq_some hgap))
          rw [List.find?_some hgap] at hunset
          cases hunset
      · rename_i hnone
        have hrest : ∀ column ∈ missing :: rest, c.sets column = false :=
          List.forall_mem_cons.mpr ⟨hmissing, fun column hc =>
            Bool.eq_false_iff.mpr (List.find?_eq_none.mp hnone column hc)⟩
        rw [fit_nulls_eq_ok_iff, and_iff_right hrest]
    · rename_i hdrop
      rw [fit_nulls_eq_ok_iff, hdrop, and_iff_right (List.forall_mem_nil _)]

/-- The leading columns are all that are set exactly if the others are not. -/
theorem takeWhile_length_iff {α : Type} {p : α → Bool} {l : List α} {k : Nat} :
    (∀ a ∈ l.dropWhile p, p a = false) ∧ k = (l.takeWhile p).length ↔
      k ≤ l.length ∧ (∀ a ∈ l.take k, p a = true) ∧ ∀ a ∈ l.drop k, p a = false := by
  induction l generalizing k with
  | nil => simp
  | cons a l ih =>
    cases hp : p a with
    | true =>
      cases k with
      | zero => simp [hp]
      | succ k =>
        have hrest := ih (k := k)
        simp only [List.dropWhile_cons, List.takeWhile_cons, hp, if_true, List.length_cons,
          Nat.succ_inj, Nat.succ_le_succ_iff, List.take_succ_cons, List.drop_succ_cons,
          List.forall_mem_cons, true_and]
        exact hrest
    | false =>
      cases k with
      | zero => simp [hp]
      | succ k => simp [hp]

/-- What a cursor that fits sets are the leading key columns, up to there. -/
theorem fit_eq_ok_iff {k : Nat} : c.fit o = .ok k ↔
    (∀ name ∈ c.values.names, (o.keyPlace? name).isSome = true) ∧ k ≤ o.key.length ∧
      (∀ column ∈ o.key.take k, c.sets column = true) ∧
      (∀ column ∈ o.key.drop k, c.sets column = false) ∧ c.NullsAllowed (o.key.take k) := by
  rw [fit_eq_ok_iff_leading, ← and_assoc (b := ∀ column ∈ o.key.dropWhile _, _)]
  constructor
  · rintro ⟨⟨hknown, hunset⟩, hk, hnulls⟩
    obtain ⟨hle, hset, hrest⟩ := takeWhile_length_iff.mp ⟨hunset, hk⟩
    rw [leading_eq_take, ← hk] at hnulls
    exact ⟨hknown, hle, hset, hrest, hnulls⟩
  · rintro ⟨hknown, hle, hset, hrest, hnulls⟩
    obtain ⟨hunset, hk⟩ := takeWhile_length_iff.mpr ⟨hle, hset, hrest⟩
    refine ⟨⟨hknown, hunset⟩, hk, ?_⟩
    rw [leading_eq_take, ← show k = (c.leading o.key).length from hk]
    exact hnulls

/-! ## Spellings -/

/-- Every name is one of a key column, in whatever spelling. -/
def Spells (c : Cursor) (o : SortOrder) : Prop :=
  ∀ name ∈ c.values.names, ∃ column ∈ o.key, keyName column.name = keyName name

/-- The names that are spelled as names are in positions. -/
def canonicalNames (c : Cursor) : List String :=
  c.values.names.filter fun name => keyName name = name

theorem mem_canonicalNames {name : String} :
    name ∈ c.canonicalNames ↔ name ∈ c.values.names ∧ keyName name = name := by
  rw [canonicalNames, List.mem_filter, decide_eq_true_eq]

theorem keyName_mem_canonicalNames {column : SortColumn} :
    keyName column.name ∈ c.canonicalNames ↔ c.sets column = true := by
  rw [mem_canonicalNames, sets_iff]
  exact and_iff_left (keyName_keyName column.name)

theorem Canonical.canonicalNames_eq (h : c.Canonical) : c.canonicalNames = c.values.names :=
  List.filter_eq_self.mpr fun name hm => decide_eq_true (h name hm)

theorem spells_iff (ho : o.Trimmed) :
    c.Spells o ↔ ∀ name ∈ c.values.names, (o.keyPlace? name).isSome = true := by
  refine forall₂_congr fun name _ => ?_
  rw [SortOrder.keyPlace?_isSome_iff]
  refine exists_congr fun column => and_congr_right fun hc => ?_
  rw [SortColumn.answersTo_iff,
    keyName_of_trimmed (ho column (SortOrder.mem_columns_of_mem_key hc))]

/-- The leading columns are all that are set exactly if the canonical names are theirs. -/
theorem canonicalNames_perm_iff (ho : o.Trimmed) (hs : c.Spells o) {k : Nat} :
    c.canonicalNames.Perm ((o.key.take k).map fun column => keyName column.name) ↔
      (∀ column ∈ o.key.take k, c.sets column = true) ∧
        ∀ column ∈ o.key.drop k, c.sets column = false := by
  have hp := key_pairwise ho
  rw [← List.take_append_drop k o.key, List.pairwise_append] at hp
  obtain ⟨htake, -, hapart⟩ := hp
  constructor
  · intro hperm
    refine ⟨fun column hc => ?_, fun column hc => Bool.eq_false_iff.mpr fun hset => ?_⟩
    · exact keyName_mem_canonicalNames.mp (hperm.mem_iff.mpr (List.mem_map_of_mem hc))
    · obtain ⟨d, hd, hname⟩ :=
        List.mem_map.mp (hperm.mem_iff.mp (keyName_mem_canonicalNames.mpr hset))
      exact hapart d hd column hc hname
  · rintro ⟨hset, hunset⟩
    refine (List.perm_ext_iff_of_nodup (c.values.names_nodup.filter _)
      (List.pairwise_map.mpr htake)).mpr fun name => ?_
    constructor
    · intro hm
      obtain ⟨hname, hcanonical⟩ := mem_canonicalNames.mp hm
      obtain ⟨column, hc, hspelled⟩ := hs name hname
      rw [hcanonical] at hspelled
      refine List.mem_map.mpr ⟨column, ?_, hspelled⟩
      -- a column whose name is there is set, and so not among the others
      rw [← List.take_append_drop k o.key] at hc
      refine (List.mem_append.mp hc).resolve_right fun hdrop => ?_
      have hsets := sets_iff.mpr (hspelled ▸ hname)
      rw [hunset column hdrop] at hsets
      cases hsets
    · intro hm
      obtain ⟨column, hc, rfl⟩ := List.mem_map.mp hm
      exact keyName_mem_canonicalNames.mpr (hset column hc)

theorem fit_eq_ok_iff_canonicalNames (ho : o.Trimmed) {k : Nat} : c.fit o = .ok k ↔
    c.Spells o ∧ k ≤ o.key.length ∧
      c.canonicalNames.Perm ((o.key.take k).map fun column => keyName column.name) ∧
      c.NullsAllowed (o.key.take k) := by
  rw [fit_eq_ok_iff, ← spells_iff ho]
  refine and_congr_right fun hs => and_congr_right fun _ => ?_
  rw [canonicalNames_perm_iff ho hs, and_assoc]

/-- A cursor whose names are canonical fits as far as it is long. -/
theorem Canonical.fit_eq_ok_iff (h : c.Canonical) (ho : o.Trimmed) {k : Nat} : c.fit o = .ok k ↔
    k = c.size ∧ c.values.names.Perm ((o.key.take k).map fun column => keyName column.name) ∧
      c.NullsAllowed (o.key.take k) := by
  have hlength (hperm : c.values.names.Perm
      ((o.key.take k).map fun column => keyName column.name)) :
      c.size = min k o.key.length := by
    rw [← List.length_take, ← List.length_map, ← hperm.length_eq]
    exact c.values.length_names.symm
  rw [fit_eq_ok_iff_canonicalNames ho, h.canonicalNames_eq]
  constructor
  · rintro ⟨-, hle, hperm, hnulls⟩
    exact ⟨by rw [hlength hperm, Nat.min_eq_left hle], hperm, hnulls⟩
  · rintro ⟨hk, hperm, hnulls⟩
    have hmin := hlength hperm
    refine ⟨fun name hm => ?_, by omega, hperm, hnulls⟩
    obtain ⟨column, hc, hname⟩ := List.mem_map.mp (hperm.mem_iff.mp hm)
    exact ⟨column, List.mem_of_mem_take hc, by rw [h name hm, hname]⟩

/-! ## Cursors that set nothing -/

theorem isEmpty_iff : c.isEmpty = true ↔ c.values.names = [] := by
  rw [isEmpty, Dictionary.isEmpty, Dictionary.names, List.isEmpty_iff, List.map_eq_nil_iff]

theorem fit_of_isEmpty (h : c.isEmpty = true) : c.fit o = .ok 0 := by
  have hnames : c.values.names = [] := isEmpty_iff.mp h
  have hunset (column : SortColumn) : c.sets column = false := by
    rw [Bool.eq_false_iff, Ne, sets_iff, hnames]
    exact List.not_mem_nil
  refine fit_eq_ok_iff.mpr ⟨?_, Nat.zero_le _, ?_, fun column _ => hunset column, ?_⟩
  · rw [hnames]
    exact List.forall_mem_nil _
  · exact List.forall_mem_nil _
  · exact List.forall_mem_nil _

theorem lowerBound_eq_none_iff : c.lowerBound o = .ok none ↔ c.fit o = .ok 0 := by
  cases hfit : c.fit o with
  | error e => simp [lowerBound, hfit, bind, Except.bind]
  | ok k =>
    rcases Nat.eq_zero_or_pos k with rfl | hk
    · simp [lowerBound, hfit, bind, Except.bind, pure, Except.pure]
    · simp [lowerBound_of_fit hfit hk, Nat.ne_of_gt hk]

theorem exists_lowerBound {k : Nat} (h : c.fit o = .ok k) :
    ∃ condition, c.lowerBound o = .ok condition := by
  rcases Nat.eq_zero_or_pos k with rfl | hk
  · exact ⟨none, lowerBound_eq_none_iff.mpr h⟩
  · exact ⟨_, lowerBound_of_fit h hk⟩

theorem lowerBound_eq_none_iff_canonicalNames (ho : o.Trimmed) :
    c.lowerBound o = .ok none ↔ c.Spells o ∧ c.canonicalNames = [] := by
  rw [lowerBound_eq_none_iff, fit_eq_ok_iff_canonicalNames ho]
  simp [NullsAllowed]

end Keyset.Cursor
