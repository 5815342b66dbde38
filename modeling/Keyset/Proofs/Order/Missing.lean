import Keyset.Proofs.Order.Rows

/-! # Rows that lack a value

Sorting places null in every column, but the condition for what is behind a
position allows for null only where the column does. So it passes over a row
that is behind for want of a value that its column must have, where null goes
last (`passedOver`). What it does reach is transitive (`Reaches.trans`), and
complete rows are never passed over. -/

namespace Keyset

/-- The column must have a value and has none, and null goes last. -/
def SortColumn.lacks (c : SortColumn) (v : Value) : Bool :=
  !c.nullable && v.isNull && c.nullPlace = .last

theorem SortColumn.order_eq_gt_of_lacks {c : SortColumn} {a b : Value} (h : c.lacks a = true)
    (hne : c.order a b ≠ .eq) : c.order a b = .gt := by
  simp only [lacks, Bool.and_eq_true, decide_eq_true_eq] at h
  obtain ⟨⟨-, hnull⟩, hplace⟩ := h
  simp only [order, hnull, hplace] at hne ⊢
  cases hb : b.isNull with
  | true => simp [hb] at hne
  | false => rfl

theorem SortColumn.lacks_congr {c : SortColumn} {a b : Value} (h : c.order a b = .eq) :
    c.lacks a = c.lacks b := by
  have hnull : a.isNull = b.isNull := by
    cases ha : a.isNull <;> cases hb : b.isNull <;> cases hp : c.nullPlace <;>
      simp_all [order]
  rw [lacks, lacks, hnull]

namespace SortOrder

/-- On the first column on which two lists of values differ, the first one lacks its value. -/
def passedOver : List SortColumn → (String → Value) → (String → Value) → Bool
  | [], _, _ => false
  | c :: cs, f, g =>
    if c.order (f c.name) (g c.name) = .eq then passedOver cs f g else c.lacks (f c.name)

theorem passedOver_congr {cs : List SortColumn} {f g g' : String → Value}
    (h : ∀ c ∈ cs, g c.name = g' c.name) : passedOver cs f g = passedOver cs f g' := by
  induction cs with
  | nil => rfl
  | cons c cs ih =>
    rw [passedOver, passedOver, h c (by simp), ih fun d hd => h d (List.mem_cons_of_mem c hd)]

theorem lexicographic_of_passedOver {cs : List SortColumn} {f g : String → Value}
    (h : passedOver cs f g = true) : lexicographic cs f g = .gt := by
  induction cs with
  | nil => cases h
  | cons c cs ih =>
    rw [passedOver] at h
    rw [lexicographic_cons]
    split at h
    · rename_i heq
      rw [heq, ih h]
      rfl
    · rename_i hne
      rw [SortColumn.order_eq_gt_of_lacks h hne]
      rfl

theorem passedOver_of_no_lacks {cs : List SortColumn} {f g : String → Value}
    (h : ∀ c ∈ cs, c.lacks (f c.name) = false) : passedOver cs f g = false := by
  induction cs with
  | nil => rfl
  | cons c cs ih =>
    rw [passedOver, ih fun d hd => h d (List.mem_cons_of_mem c hd), h c (by simp), ite_self]

/-- Values that are there are not passed over. -/
theorem passedOver_of_complete {cs : List SortColumn} {f g : String → Value}
    (h : ∀ c ∈ cs, c.nullable = false → (f c.name).isNull = false) :
    passedOver cs f g = false := by
  refine passedOver_of_no_lacks fun c hc => ?_
  cases hn : c.nullable with
  | true => simp [SortColumn.lacks, hn]
  | false => simp [SortColumn.lacks, h c hc hn]

/-- What is behind some values and not passed over. -/
def Reaches (cs : List SortColumn) (f g : String → Value) : Prop :=
  lexicographic cs f g = .gt ∧ passedOver cs f g = false

instance (cs : List SortColumn) (f g : String → Value) : Decidable (Reaches cs f g) :=
  inferInstanceAs (Decidable (_ ∧ _))

theorem reaches_congr {cs : List SortColumn} {f g g' : String → Value}
    (h : ∀ c ∈ cs, g c.name = g' c.name) : Reaches cs f g ↔ Reaches cs f g' := by
  unfold Reaches
  rw [lexicographic_congr h, passedOver_congr h]

theorem reaches_cons {c : SortColumn} {cs : List SortColumn} {f g : String → Value} :
    Reaches (c :: cs) f g ↔ c.order (f c.name) (g c.name) = .gt ∧ c.lacks (f c.name) = false ∨
      c.order (f c.name) (g c.name) = .eq ∧ Reaches cs f g := by
  unfold Reaches
  rw [lexicographic_cons, passedOver]
  cases c.order (f c.name) (g c.name) <;> simp

/-- What is reached from what is reached on the leading columns is reached on these. -/
theorem Reaches.trans {cs ds : List SortColumn} {f g h : String → Value}
    (hfg : Reaches (cs ++ ds) f g) (hgh : Reaches cs g h) : Reaches cs f h := by
  induction cs with
  | nil => exact absurd hgh.1 (by simp [lexicographic])
  | cons c cs ih =>
    rw [List.cons_append, reaches_cons] at hfg
    rw [reaches_cons] at hgh ⊢
    rcases hfg with ⟨hgt, hvalue⟩ | ⟨heq, hrest⟩
    · refine Or.inl ⟨?_, hvalue⟩
      rcases hgh with ⟨hgt', -⟩ | ⟨heq', -⟩
      · exact Std.TransCmp.gt_trans hgt hgt'
      · exact Std.TransCmp.gt_of_gt_of_eq hgt heq'
    · rcases hgh with ⟨hgt', hvalue'⟩ | ⟨heq', hrest'⟩
      · exact Or.inl ⟨Std.TransCmp.gt_of_eq_of_gt heq hgt', by
          rw [SortColumn.lacks_congr heq, hvalue']⟩
      · exact Or.inr ⟨Std.TransCmp.eq_trans heq heq', ih hrest hrest'⟩

/-! ## Rows -/

variable {o : SortOrder}

/-- Seeking what is behind `last` passes over `row`. -/
def PassesOver (o : SortOrder) (last row : Row) : Prop :=
  passedOver o.key row.value last.value = true

instance (o : SortOrder) (last row : Row) : Decidable (o.PassesOver last row) :=
  inferInstanceAs (Decidable (_ = true))

theorem PassesOver.greater {last row : Row} (h : o.PassesOver last row) :
    o.compareRows row last = .gt := by
  rw [compareRows_eq]
  exact lexicographic_of_passedOver h

/-- A row that compares greater is reached or passed over. -/
theorem reaches_iff {last row : Row} :
    Reaches o.key row.value last.value ↔
      o.compareRows row last = .gt ∧ ¬ o.PassesOver last row := by
  rw [Reaches, compareRows_eq, PassesOver, Bool.not_eq_true]

theorem Complete.not_passesOver {row : Row} (h : o.Complete row) (last : Row) :
    ¬ o.PassesOver last row := by
  rw [PassesOver, passedOver_of_complete h]
  exact Bool.false_ne_true

/-- Where null goes first, or is allowed, nothing is passed over. -/
theorem not_passesOver_of_first
    (h : ∀ c ∈ o.key, c.nullable = false → c.nullPlace = .first) (last row : Row) :
    ¬ o.PassesOver last row := by
  rw [PassesOver, passedOver_of_no_lacks fun c hc => ?_]
  · exact Bool.false_ne_true
  · cases hn : c.nullable with
    | true => simp [SortColumn.lacks, hn]
    | false => simp [SortColumn.lacks, h c hc hn]

end SortOrder

end Keyset
