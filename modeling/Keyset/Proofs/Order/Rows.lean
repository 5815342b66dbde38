import Keyset.Order.Basic
import Keyset.Proofs.Value.Order

/-! # The order of rows is total

Values under names compare column by column (`lexicographic`). The order of
rows is the case where the names are those of the key, so it reverses when the
rows do and is transitive, and sorting by it gives a list in which each row is
below all that follow. A list of rows of which no two compare equal has one
sorted form (`sort_eq_of_ascending`). -/

namespace Keyset

namespace SortColumn

/-- Where a value stands for being null or not. -/
def nullRank (c : SortColumn) (v : Value) : Nat :=
  if v.isNull then
    match c.nullPlace with
    | .first => 0
    | .last => 2
  else 1

/-- The order of values in the direction of the column, null or not. -/
def directed (c : SortColumn) : Value → Value → Ordering :=
  match c.direction with
  | .ascending => Value.order
  | .descending => fun a b => b.order a

theorem order_eq (c : SortColumn) (a b : Value) :
    c.order a b = compareLex (compareOn c.nullRank) c.directed a b := by
  have hs : (a.order b).swap = b.order a := Std.OrientedCmp.eq_swap.symm
  simp only [order, compareLex, compareOn, nullRank, directed, hs]
  cases ha : a.isNull <;> cases hb : b.isNull
  · cases c.direction <;> rfl
  · cases c.nullPlace <;> rfl
  · cases c.nullPlace <;> rfl
  · rw [Value.isNull_iff.mp ha, Value.isNull_iff.mp hb]
    cases c.nullPlace <;> cases c.direction <;> rfl

instance (c : SortColumn) : Std.TransCmp c.directed := by
  unfold directed
  split <;> infer_instance

instance (c : SortColumn) : Std.TransCmp c.order := by
  rw [show c.order = _ from funext fun a => funext (c.order_eq a)]
  infer_instance

end SortColumn

namespace SortOrder

/-! ## Column by column -/

/-- The order of values under names: the first column on which they differ
decides. -/
def lexicographic : List SortColumn → (String → Value) → (String → Value) → Ordering
  | [] => fun _ _ => .eq
  | c :: cs => compareLex (fun f g => c.order (f c.name) (g c.name)) (lexicographic cs)

theorem lexicographic_cons (c : SortColumn) (cs : List SortColumn) (f g : String → Value) :
    lexicographic (c :: cs) f g = (c.order (f c.name) (g c.name)).then (lexicographic cs f g) := rfl

theorem lexicographic_append (cs ds : List SortColumn) (f g : String → Value) :
    lexicographic (cs ++ ds) f g = (lexicographic cs f g).then (lexicographic ds f g) := by
  induction cs with
  | nil => rfl
  | cons c cs ih =>
    rw [List.cons_append, lexicographic_cons, lexicographic_cons, ih, Ordering.then_assoc]

/-- Only the values under the names of the columns count. -/
theorem lexicographic_congr {cs : List SortColumn} {f g g' : String → Value}
    (h : ∀ c ∈ cs, g c.name = g' c.name) : lexicographic cs f g = lexicographic cs f g' := by
  induction cs with
  | nil => rfl
  | cons c cs ih =>
    rw [lexicographic_cons, lexicographic_cons, h c (by simp),
      ih fun d hd => h d (List.mem_cons_of_mem c hd)]

/-- The later of two lists of values is the one that is later on the first
column on which they differ. -/
theorem lexicographic_eq_gt_iff {cs : List SortColumn} {f g : String → Value} :
    lexicographic cs f g = .gt ↔
      (cs.map fun c => c.order (f c.name) (g c.name)).find? (· ≠ .eq) = some .gt := by
  induction cs with
  | nil => simp [lexicographic]
  | cons c cs ih =>
    rw [lexicographic_cons, List.map_cons, List.find?_cons]
    cases c.order (f c.name) (g c.name) with
    | lt | gt => simp
    | eq => simpa using ih

instance (cs : List SortColumn) : Std.TransCmp (lexicographic cs) := by
  induction cs with
  | nil => exact { eq_swap := rfl, isLE_trans := fun _ _ => rfl }
  | cons c cs ih =>
    have : Std.TransCmp fun f g : String → Value => c.order (f c.name) (g c.name) :=
      { eq_swap := Std.OrientedCmp.eq_swap, isLE_trans := Std.TransCmp.isLE_trans }
    unfold lexicographic
    infer_instance

theorem lexicographic_congr_left {cs : List SortColumn} {f f' g : String → Value}
    (h : ∀ c ∈ cs, f c.name = f' c.name) : lexicographic cs f g = lexicographic cs f' g := by
  have hswap (f : String → Value) : lexicographic cs f g = (lexicographic cs g f).swap :=
    Std.OrientedCmp.eq_swap
  rw [hswap f, hswap f', lexicographic_congr h]

theorem compareBy_eq (cs : List SortColumn) (a b : Row) :
    compareBy cs a b = lexicographic cs a.value b.value := by
  induction cs with
  | nil => rfl
  | cons c cs ih =>
    rw [compareBy, lexicographic_cons, ih]
    cases c.order (a.value c.name) (b.value c.name) <;> rfl

theorem compareRows_eq (o : SortOrder) (a b : Row) :
    o.compareRows a b = lexicographic o.key a.value b.value := compareBy_eq o.key a b

instance (o : SortOrder) : Std.TransCmp o.compareRows where
  eq_swap := by
    intro a b
    rw [compareRows_eq, compareRows_eq]
    exact Std.OrientedCmp.eq_swap
  isLE_trans := by
    intro a b c hab hbc
    rw [compareRows_eq] at hab hbc ⊢
    exact Std.TransCmp.isLE_trans hab hbc

/-! ## Sorted rows -/

/-- A row holds a value in every key column that must have one. -/
def Complete (o : SortOrder) (row : Row) : Prop :=
  ∀ c ∈ o.key, c.nullable = false → (row.value c.name).isNull = false

/-- No two of the rows compare equal. -/
def Apart (o : SortOrder) (rows : List Row) : Prop :=
  rows.Pairwise fun a b => o.compareRows a b ≠ .eq

/-- Each row is below all that follow. -/
def Ascending (o : SortOrder) (rows : List Row) : Prop :=
  rows.Pairwise fun a b => o.compareRows a b = .lt

instance (o : SortOrder) (row : Row) : Decidable (o.Complete row) :=
  inferInstanceAs (Decidable (∀ c ∈ o.key, c.nullable = false → _))

instance (o : SortOrder) (rows : List Row) : Decidable (o.Apart rows) :=
  inferInstanceAs (Decidable (rows.Pairwise _))

instance (o : SortOrder) (rows : List Row) : Decidable (o.Ascending rows) :=
  inferInstanceAs (Decidable (rows.Pairwise _))

variable {o : SortOrder} {rows : List Row}

theorem sort_perm (o : SortOrder) (rows : List Row) : (o.sort rows).Perm rows :=
  List.mergeSort_perm rows _

theorem mem_sort {row : Row} : row ∈ o.sort rows ↔ row ∈ rows := (sort_perm o rows).mem_iff

theorem Apart.perm {rows' : List Row} (h : o.Apart rows) (hp : rows.Perm rows') :
    o.Apart rows' :=
  List.Pairwise.perm h hp fun hne heq => hne (Std.OrientedCmp.eq_symm heq)

theorem Apart.filter (h : o.Apart rows) (p : Row → Bool) : o.Apart (rows.filter p) :=
  List.Pairwise.filter p h

theorem Apart.sort_ascending (h : o.Apart rows) : o.Ascending (o.sort rows) := by
  have hle : (o.sort rows).Pairwise fun a b => (o.compareRows a b).isLE = true := by
    apply List.pairwise_mergeSort
    · exact fun a b c => Std.TransCmp.isLE_trans
    · intro a b
      have hs : o.compareRows b a = (o.compareRows a b).swap := Std.OrientedCmp.eq_swap
      show ((o.compareRows a b).isLE || (o.compareRows b a).isLE) = true
      rw [hs]
      cases o.compareRows a b <;> rfl
  have hne : o.Apart (o.sort rows) := h.perm (sort_perm o rows).symm
  refine (hle.and hne).imp fun {a b} hab => ?_
  rcases Ordering.isLE_iff_eq_lt_or_eq_eq.mp hab.1 with hlt | heq
  · exact hlt
  · exact absurd heq hab.2

theorem Ascending.apart (h : o.Ascending rows) : o.Apart rows :=
  h.imp fun hlt heq => by rw [hlt] at heq; cases heq

theorem Apart.nodup (h : o.Apart rows) : rows.Nodup := by
  refine h.imp fun {a b} hne heq => hne ?_
  rw [heq]
  exact Std.ReflCmp.compare_self

theorem Ascending.nodup (h : o.Ascending rows) : rows.Nodup := h.apart.nodup

/-- Two ascending lists of the same rows are equal. -/
theorem Ascending.eq_of_perm {rows' : List Row} (h : o.Ascending rows) (h' : o.Ascending rows')
    (hp : rows.Perm rows') : rows = rows' := by
  refine List.Perm.eq_of_pairwise (fun a b _ _ hab hba => ?_) h h' hp
  have hgt : o.compareRows a b = .gt := Std.OrientedCmp.gt_of_lt hba
  rw [hab] at hgt
  cases hgt

theorem sort_eq_of_ascending {rows' : List Row} (h : o.Ascending rows') (hp : rows'.Perm rows) :
    o.sort rows = rows' :=
  (h.apart.perm hp).sort_ascending.eq_of_perm h ((sort_perm o rows).trans hp.symm)

theorem Ascending.isLE_last {row last : Row} (h : o.Ascending rows)
    (hl : rows.getLast? = some last) (hm : row ∈ rows) :
    (o.compareRows row last).isLE = true := by
  obtain ⟨init, rfl⟩ := List.getLast?_eq_some_iff.mp hl
  rcases List.mem_append.mp hm with hm | hm
  · rw [(List.pairwise_append.mp h).2.2 row hm last (by simp)]
    rfl
  · have heq : o.compareRows last last = .eq := Std.ReflCmp.compare_self
    rw [List.mem_singleton.mp hm, heq]
    rfl

/-- The rows behind the last of the first `n` ones are the others. -/
theorem Ascending.filter_behind {n : Nat} {last : Row} (h : o.Ascending rows)
    (hl : (rows.take n).getLast? = some last) :
    rows.filter (fun row => o.compareRows row last = .gt) = rows.drop n := by
  obtain ⟨init, hi⟩ := List.getLast?_eq_some_iff.mp hl
  have hrows : rows = (init ++ [last]) ++ rows.drop n := by rw [← hi, List.take_append_drop]
  unfold Ascending at h
  rw [hrows, List.pairwise_append, List.pairwise_append] at h
  obtain ⟨⟨_, _, hinit⟩, _, hrest⟩ := h
  have hnone : (init ++ [last]).filter (fun row => o.compareRows row last = .gt) = [] := by
    refine List.filter_eq_nil_iff.mpr fun row hrow => ?_
    rcases List.mem_append.mp hrow with hrow | hrow
    · simp [hinit row hrow last (by simp)]
    · rw [List.mem_singleton.mp hrow]
      simp [Std.ReflCmp.compare_self]
  have hall : (rows.drop n).filter (fun row => o.compareRows row last = .gt) = rows.drop n := by
    refine List.filter_eq_self.mpr fun row hrow => ?_
    simpa using Std.OrientedCmp.gt_of_lt (hrest last (by simp) row hrow)
  calc rows.filter (fun row => o.compareRows row last = .gt)
      = ((init ++ [last]) ++ rows.drop n).filter (fun row => o.compareRows row last = .gt) := by
        rw [← hrows]
    _ = rows.drop n := by rw [List.filter_append, hnone, hall, List.nil_append]

/-- The first `n` rows are those up to the last of them. -/
theorem Ascending.mem_take_iff {n : Nat} {row last : Row} (h : o.Ascending rows)
    (hl : (rows.take n).getLast? = some last) :
    row ∈ rows.take n ↔ row ∈ rows ∧ o.compareRows row last ≠ .gt := by
  constructor
  · intro hm
    refine ⟨List.mem_of_mem_take hm, fun hgt => ?_⟩
    have hle := Ascending.isLE_last (List.Pairwise.take h) hl hm
    rw [hgt] at hle
    cases hle
  · rintro ⟨hm, hne⟩
    rw [← List.take_append_drop n rows] at hm
    refine (List.mem_append.mp hm).resolve_right fun hdrop => hne ?_
    rw [← h.filter_behind hl, List.mem_filter, decide_eq_true_eq] at hdrop
    exact hdrop.2

end SortOrder

end Keyset
