import Keyset.Proofs.Order.Names
import Keyset.Proofs.Order.Rows
import Mathlib.Data.List.TakeWhile

/-! # The position of a row

A row has a position exactly if it is complete (`ofRow_eq_ok_iff`). The
position sets every key column to the value of the row, and so fits the
ordering in full (`fit_ofRow`). What a position fits tells for any cursor
(`fit_eq_ok`): it sets the leading key columns up to there, and null only where
null is allowed. -/

namespace Keyset.Cursor
open SortOrder

/-- The value a cursor has for a column, or null. -/
def bound (c : Cursor) (name : String) : Value := (c.find? name).getD .null

/-! ## Cursors that fit -/

theorem leading_eq_take (c : Cursor) (columns : List SortColumn) :
    c.leading columns = columns.take (c.leading columns).length := by
  have hp : c.leading columns <+: columns := List.takeWhile_prefix c.sets
  exact List.prefix_iff_eq_take.mp hp

theorem sets_of_mem_leading {c : Cursor} {columns : List SortColumn} {column : SortColumn}
    (h : column ∈ c.leading columns) : c.find? column.name = some (c.bound column.name) := by
  have hs : c.sets column = true := List.mem_takeWhile_imp h
  obtain ⟨v, hv⟩ := Option.isSome_iff_exists.mp hs
  rw [bound, hv, Option.getD_some]

theorem fit_eq_ok {c : Cursor} {o : SortOrder} {k : Nat} (h : c.fit o = .ok k) :
    c.leading o.key = o.key.take k ∧
      ∀ column ∈ c.leading o.key, column.nullable = false →
        (c.bound column.name).isNull = false := by
  have hnulls : fit.nulls c o = .ok k := by
    unfold fit at h
    repeat' split at h
    all_goals first | cases h | exact h
  simp only [fit.nulls] at hnulls
  split at hnulls
  · cases hnulls
  · rename_i hfind
    cases hnulls
    refine ⟨leading_eq_take c o.key, fun column hc hn => ?_⟩
    have hnone := List.find?_eq_none.mp hfind column hc
    rw [sets_of_mem_leading hc, hn] at hnone
    cases hb : (c.bound column.name).isNull with
    | false => rfl
    | true => rw [Value.isNull_iff.mp hb] at hnone; simp at hnone

/-! ## Positions of rows -/

variable {row : Row} {cs : List SortColumn} {values : Dictionary Value} {c : Cursor} {o : SortOrder}

theorem ofColumns_cons {column : SortColumn} (h : ofColumns row (column :: cs) values = .ok c) :
    (column.nullable = false → (row.value column.name).isNull = false) ∧
      ofColumns row cs (values.insert (keyName column.name) (row.value column.name)) = .ok c := by
  simp only [ofColumns] at h
  split at h
  · cases h
  · rename_i hn
    refine ⟨fun hnull => ?_, h⟩
    simpa [hnull] using hn

/-- Names of no column are left as they were. -/
theorem ofColumns_find?_other {n : String} (h : ofColumns row cs values = .ok c)
    (hn : ∀ column ∈ cs, keyName column.name ≠ n) : c.values.find? n = values.find? n := by
  induction cs generalizing values with
  | nil => cases h; rfl
  | cons column cs ih =>
    rw [ih (ofColumns_cons h).2 fun d hd => hn d (List.mem_cons_of_mem column hd),
      Dictionary.find?_insert, if_neg (hn column (by simp)).symm]

theorem ofColumns_find? (h : ofColumns row cs values = .ok c)
    (hp : cs.Pairwise fun a b => keyName a.name ≠ keyName b.name) :
    ∀ column ∈ cs, c.find? column.name = some (row.value column.name) := by
  induction cs generalizing values with
  | nil => simp
  | cons column cs ih =>
    obtain ⟨hfirst, hrest⟩ := List.pairwise_cons.mp hp
    have hcs := (ofColumns_cons h).2
    intro d hd
    rcases List.mem_cons.mp hd with rfl | hd
    · rw [find?, ofColumns_find?_other hcs fun e he heq => hfirst e he heq.symm,
        Dictionary.find?_insert, if_pos rfl]
    · exact ih hcs hrest d hd

theorem ofColumns_eq_ok (h : ∀ column ∈ cs, column.nullable = false →
    (row.value column.name).isNull = false) : ∃ c, ofColumns row cs values = .ok c := by
  induction cs generalizing values with
  | nil => exact ⟨⟨values⟩, rfl⟩
  | cons column cs ih =>
    obtain ⟨c, hc⟩ : ∃ c, ofColumns row cs
        (values.insert (keyName column.name) (row.value column.name)) = .ok c :=
      ih fun d hd => h d (List.mem_cons_of_mem column hd)
    refine ⟨c, ?_⟩
    rw [ofColumns, if_neg ?_, hc]
    rintro ⟨hnull, hn⟩
    rw [h column (by simp) (by simpa using hn)] at hnull
    cases hnull

theorem complete_of_ofColumns (h : ofColumns row cs values = .ok c) :
    ∀ column ∈ cs, column.nullable = false → (row.value column.name).isNull = false := by
  induction cs generalizing values with
  | nil => simp
  | cons column cs ih =>
    obtain ⟨hfirst, hcs⟩ := ofColumns_cons h
    intro d hd
    rcases List.mem_cons.mp hd with rfl | hd
    · exact hfirst
    · exact ih hcs d hd

theorem ofRow_eq_ok_iff : (∃ c, ofRow o row = .ok c) ↔ o.Complete row :=
  ⟨fun ⟨_, h⟩ => complete_of_ofColumns h, ofColumns_eq_ok⟩

theorem find?_ofRow (hn : o.Trimmed) (h : ofRow o row = .ok c) {column : SortColumn}
    (hc : column ∈ o.key) : c.find? column.name = some (row.value column.name) :=
  ofColumns_find? h (key_pairwise hn) column hc

theorem bound_ofRow (hn : o.Trimmed) (h : ofRow o row = .ok c) {column : SortColumn}
    (hc : column ∈ o.key) : c.bound column.name = row.value column.name := by
  rw [bound, find?_ofRow hn h hc, Option.getD_some]

theorem leading_ofRow (hn : o.Trimmed) (h : ofRow o row = .ok c) : c.leading o.key = o.key := by
  refine List.takeWhile_eq_self_iff.mpr fun column hc => ?_
  rw [sets, find?_ofRow hn h hc]
  rfl

theorem mem_entries_ofColumns {e : String × Value} (h : ofColumns row cs values = .ok c)
    (he : e ∈ c.values.entries) :
    e ∈ values.entries ∨ ∃ column ∈ cs, e = (keyName column.name, row.value column.name) := by
  induction cs generalizing values with
  | nil =>
    cases h
    exact .inl he
  | cons column cs ih =>
    rcases ih (ofColumns_cons h).2 with hput | ⟨d, hd, heq⟩
    · rcases Dictionary.mem_put hput with heq | hbefore
      · exact .inr ⟨column, List.mem_cons_self, heq⟩
      · exact .inl hbefore
    · exact .inr ⟨d, List.mem_cons_of_mem column hd, heq⟩

/-- A position holds nothing but values of the row. -/
theorem mem_entries_ofRow {e : String × Value} (h : ofRow o row = .ok c)
    (he : e ∈ c.values.entries) :
    ∃ column ∈ o.key, e = (keyName column.name, row.value column.name) :=
  (mem_entries_ofColumns h he).resolve_left List.not_mem_nil

theorem keyName_of_mem_names (h : ofRow o row = .ok c) {n : String} (hm : n ∈ c.values.names) :
    ∃ column ∈ o.key, keyName column.name = n := by
  obtain ⟨e, he, rfl⟩ := List.mem_map.mp hm
  obtain ⟨column, hc, rfl⟩ := mem_entries_ofRow h he
  exact ⟨column, hc, rfl⟩

theorem fit_ofRow (hn : o.Trimmed) (h : ofRow o row = .ok c) : c.fit o = .ok o.key.length := by
  have hnames : c.values.names.find? (fun name => (o.keyPlace? name).isNone) = none := by
    refine List.find?_eq_none.mpr fun n hm => ?_
    obtain ⟨column, hc, rfl⟩ := keyName_of_mem_names h hm
    simp [Option.isSome_iff_ne_none.mp (keyPlace?_isSome hn hc)]
  have hset : o.key.dropWhile c.sets = [] := by
    refine List.dropWhile_eq_nil_iff.mpr fun column hc => ?_
    rw [sets, find?_ofRow hn h hc]
    rfl
  have hnull : (c.leading o.key).find? (fun column =>
      !column.nullable && c.find? column.name = some .null) = none := by
    rw [leading_ofRow hn h]
    refine List.find?_eq_none.mpr fun column hc => ?_
    rw [find?_ofRow hn h hc]
    cases hb : column.nullable with
    | true => simp
    | false =>
      have hv := ofRow_eq_ok_iff.mp ⟨c, h⟩ column hc hb
      simp only [Bool.not_false, Bool.true_and, decide_eq_true_eq, Option.some.injEq]
      intro hnull
      rw [hnull] at hv
      cases hv
  unfold fit
  rw [hnames, hset]
  simp only [fit.nulls, hnull]
  rw [leading_ofRow hn h]

theorem isEmpty_of_find? {n : String} (h : (c.values.find? n).isSome = true) :
    c.isEmpty = false := by
  obtain ⟨v, hv⟩ := Option.isSome_iff_exists.mp h
  have hm := Dictionary.find?_eq_some_iff.mp hv
  rw [isEmpty, Dictionary.isEmpty]
  cases he : c.values.entries with
  | nil => rw [he] at hm; cases hm
  | cons e es => rfl

/-- What a name is given stays, or is replaced. -/
theorem ofColumns_find?_isSome {n : String} (h : ofColumns row cs values = .ok c)
    (hn : (values.find? n).isSome = true) : (c.values.find? n).isSome = true := by
  induction cs generalizing values with
  | nil => cases h; exact hn
  | cons column cs ih =>
    refine ih (ofColumns_cons h).2 ?_
    rw [Dictionary.find?_insert]
    split
    · rfl
    · exact hn

theorem isEmpty_ofRow (h : ofRow o row = .ok c) : c.isEmpty = false := by
  cases hk : o.key with
  | nil => exact absurd hk o.key_ne_nil
  | cons column cs =>
    rw [ofRow, hk] at h
    refine isEmpty_of_find? (n := keyName column.name)
      (ofColumns_find?_isSome (ofColumns_cons h).2 ?_)
    rw [Dictionary.find?_insert, if_pos rfl]
    rfl

end Keyset.Cursor
