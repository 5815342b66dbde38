import Keyset.Traversal
import Keyset.Proofs.Order.Rows
import Keyset.Proofs.Value.Distinct
import Mathlib.Data.List.Forall2

/-! # The key decides the order of rows

Two rows compare equal exactly if they do so on every key column, where null is
equal to null only (`compareRows_eq_eq_iff`). No other field of a row takes
part (`compareRows_congr`), and no column behind the first distinct one
(`key_of_columns`). -/

namespace Keyset

open Text

/-! ## Rows that compare equal -/

theorem Value.isNull_eq_of_order {a b : Value} (h : a.order b = .eq) : a.isNull = b.isNull := by
  rcases Value.order_eq_eq_iff.mp h with rfl | hint
  · rfl
  · cases a <;> cases b <;> first | rfl | cases hint

/-- Null compares equal to null only, in whatever place it stands. -/
theorem SortColumn.order_eq_iff {c : SortColumn} {a b : Value} :
    c.order a b = .eq ↔ (a.isNull = true ∧ b.isNull = true) ∨ a.order b = .eq := by
  have hne (h : a.isNull ≠ b.isNull) : a.order b ≠ .eq := mt Value.isNull_eq_of_order h
  rw [order]
  cases ha : a.isNull <;> cases hb : b.isNull
  · cases c.direction <;> simp [Ordering.swap_eq_eq]
  · cases c.nullPlace <;> simp [hne (by simp [ha, hb])]
  · cases c.nullPlace <;> simp [hne (by simp [ha, hb])]
  · simp

namespace SortOrder

theorem lexicographic_eq_eq_iff {cs : List SortColumn} {f g : String → Value} :
    lexicographic cs f g = .eq ↔ ∀ c ∈ cs, c.order (f c.name) (g c.name) = .eq := by
  induction cs with
  | nil => simp [lexicographic]
  | cons c cs ih => rw [lexicographic_cons, Ordering.then_eq_eq, ih, List.forall_mem_cons]

theorem compareRows_eq_eq_iff {o : SortOrder} {a b : Row} :
    o.compareRows a b = .eq ↔ ∀ c ∈ o.key,
      ((a.value c.name).isNull = true ∧ (b.value c.name).isNull = true) ∨
        (a.value c.name).order (b.value c.name) = .eq := by
  rw [compareRows_eq, lexicographic_eq_eq_iff]
  exact forall₂_congr fun c _ => SortColumn.order_eq_iff

/-! ## What takes part -/

/-- The fields that a key column names, the case of letters ignored. -/
def keyFields (o : SortOrder) (row : Row) : List Field :=
  row.fields.filter fun f => o.key.any fun c => sameFolded f.name c.name

theorem value_of_keyFields {o : SortOrder} {c : SortColumn} (hc : c ∈ o.key) (row : Row) :
    row.value c.name = (((o.keyFields row).find? fun f => sameFolded f.name c.name).bind
      (·.value)).getD .null := by
  have hfind : (o.keyFields row).find? (fun f => sameFolded f.name c.name) =
      row.field? c.name := by
    rw [keyFields, List.find?_filter, Row.field?]
    refine congrArg (fun p => row.fields.find? p) (funext fun f => ?_)
    cases hf : sameFolded f.name c.name with
    | false => simp
    | true => simpa using ⟨c, hc, hf⟩
  rw [Row.value, hfind]

/-- Rows compare by their key fields. -/
theorem compareRows_congr {o : SortOrder} {a a' b b' : Row} (ha : o.keyFields a' = o.keyFields a)
    (hb : o.keyFields b' = o.keyFields b) : o.compareRows a' b' = o.compareRows a b := by
  have hvalue {row row' : Row} (h : o.keyFields row' = o.keyFields row) :
      ∀ c ∈ o.key, row'.value c.name = row.value c.name := by
    intro c hc
    rw [value_of_keyFields hc, value_of_keyFields hc, h]
  rw [compareRows_eq, compareRows_eq, lexicographic_congr_left (hvalue ha),
    lexicographic_congr (hvalue hb)]

/-- Columns that are distinct where those up to the first distinct one are end at the same place,
whatever stands behind them. -/
theorem upToDistinct_append {cs ds : List SortColumn} (rest : List SortColumn)
    (hdistinct : cs.any (·.distinct) = true)
    (h : List.Forall₂ (fun c d => c.distinct = d.distinct) (upToDistinct cs) ds) :
    upToDistinct (ds ++ rest) = ds := by
  induction cs generalizing ds with
  | nil => cases hdistinct
  | cons c cs ih =>
    cases hc : c.distinct with
    | true =>
      rw [upToDistinct, if_pos hc] at h
      cases h with
      | cons hcd hnil =>
        cases hnil
        simp [upToDistinct, ← hcd, hc]
    | false =>
      rw [upToDistinct, hc, if_neg Bool.false_ne_true] at h
      rw [List.any_cons, hc, Bool.false_or] at hdistinct
      cases h with
      | cons hcd htail => simp [upToDistinct, ← hcd, hc, ih hdistinct htail]

theorem columns_any_distinct (o : SortOrder) : o.columns.any (·.distinct) = true := by
  have hsound := o.sound
  unfold defect? at hsound
  split at hsound
  · cases hsound
  · have hlast := (Option.or_eq_none_iff.mp hsound).2
    split at hlast
    · assumption
    · cases hlast

/-- Columns behind the first distinct one are not in the key. -/
theorem key_of_columns {o o' : SortOrder} {rest : List SortColumn}
    (h : o'.columns = o.key ++ rest) : o'.key = o.key := by
  rw [key, h]
  exact upToDistinct_append rest o.columns_any_distinct (List.forall₂_same.mpr fun _ _ => rfl)

/-- **The key columns make a total preorder of rows.** Every row compares equal to itself, the
comparison reverses when the rows do, and "not above" is transitive. Two rows compare equal exactly
if on each key column both are null or their values compare equal. Fields that the key does not name
can be others, and so can the columns behind the first distinct one: the comparison stays. -/
theorem compareRows_by_key (o : SortOrder) (a b c : Row) :
    o.compareRows a a = .eq ∧
    o.compareRows b a = (o.compareRows a b).swap ∧
    (o.compareRows a b ≠ .gt → o.compareRows b c ≠ .gt → o.compareRows a c ≠ .gt) ∧
    (o.compareRows a b = .eq ↔ ∀ column ∈ o.key,
      ((a.value column.name).isNull = true ∧ (b.value column.name).isNull = true) ∨
        (a.value column.name).order (b.value column.name) = .eq) ∧
    (∀ a' b', o.keyFields a' = o.keyFields a → o.keyFields b' = o.keyFields b →
      o.compareRows a' b' = o.compareRows a b) ∧
    (∀ (o' : SortOrder) rest, o'.columns = o.key ++ rest →
      o'.compareRows a b = o.compareRows a b) := by
  refine ⟨Std.ReflCmp.compare_self, Std.OrientedCmp.eq_swap, ?_, compareRows_eq_eq_iff, ?_, ?_⟩
  · intro hab hbc
    refine Ordering.ne_gt_iff_isLE.mpr ?_
    exact Std.TransCmp.isLE_trans (Ordering.ne_gt_iff_isLE.mp hab) (Ordering.ne_gt_iff_isLE.mp hbc)
  · intro a' b' ha hb
    exact compareRows_congr ha hb
  · intro o' rest hcolumns
    rw [compareRows, key_of_columns hcolumns, compareRows]

end SortOrder

/-- Posts by their score, the highest first, with those without a score at the end. -/
def Post.scoredFirst : SortOrder :=
  ⟨[⟨"score", .descending, true, false, some .last⟩, ⟨"id", .ascending, false, true, none⟩],
    by decide⟩

/-- The same posts in the same order, by a column that does not matter. -/
def Post.scoredFirstTitled : SortOrder :=
  ⟨Post.scoredFirst.key ++ [.named "title"], by decide⟩

/-- A post with a score comes before one without, and one behind it, under any titles. -/
theorem Post.compare_scoredFirst :
    let titled (row : Row) (title : String) : Row :=
      { row with fields := ⟨"Title", some (.string title)⟩ :: row.fields }
    scoredFirst.compareRows (scored 7 (some 3)) (scored 2 none) ≠ .gt ∧
    scoredFirst.compareRows (scored 7 (some 3)) (scored 4 none) ≠ .gt ∧
    scoredFirst.compareRows (titled (scored 2 none) "b") (titled (scored 4 none) "a") = .lt ∧
    scoredFirstTitled.compareRows (scored 2 none) (scored 4 none) = .lt ∧
    scoredFirst.compareRows (scored 2 none) (scored 2 none) = .eq := by
  intro titled
  obtain ⟨-, -, htrans, -, -, -⟩ := SortOrder.compareRows_by_key scoredFirst
    (scored 7 (some 3)) (scored 2 none) (scored 4 none)
  obtain ⟨-, -, -, -, hfields, hcolumns⟩ := SortOrder.compareRows_by_key scoredFirst
    (scored 2 none) (scored 4 none) (scored 4 none)
  have hless : scoredFirst.compareRows (scored 2 none) (scored 4 none) = .lt := by decide
  have hfirst : scoredFirst.compareRows (scored 7 (some 3)) (scored 2 none) ≠ .gt := by decide
  refine ⟨hfirst, htrans hfirst (by decide), ?_, ?_, ?_⟩
  · rw [hfields _ _ (by decide) (by decide), hless]
  · rw [hcolumns scoredFirstTitled _ rfl, hless]
  · exact (SortOrder.compareRows_by_key scoredFirst (scored 2 none) (scored 2 none)
      (scored 2 none)).1

end Keyset
