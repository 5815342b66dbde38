import Keyset.Condition.Basic

/-! # Joined conditions

`all` and `any` take inner conjunctions and disjunctions apart, stop at `never`
and leave out what does not matter. Nothing that reads conditions part by part
can tell: where conjunctions are read by an associative operation with a unit,
and `never` absorbs, `all` is read as the conjunction (`read_all`), and `any` as
the disjunction where `never` is the unit (`read_any`). In particular they hold
of the rows of which all, or any, of their parts hold. -/

namespace Keyset.Condition

/-! ## Conditions read part by part -/

section Reading

variable {α : Type} {read : Condition → α} {op : α → α → α} {unit : α}

/-- What a list of parts is read as. -/
def joined (read : Condition → α) (op : α → α → α) (unit : α) (parts : List Condition) : α :=
  parts.foldr (fun p rest => op (read p) rest) unit

theorem joined_cons (p : Condition) (ps : List Condition) :
    joined read op unit (p :: ps) = op (read p) (joined read op unit ps) := rfl

variable [Std.LawfulIdentity op unit]

theorem joined_singleton (p : Condition) : joined read op unit [p] = read p :=
  Std.LawfulRightIdentity.right_id (read p)

variable [Std.Associative op]

theorem joined_append (ps qs : List Condition) :
    joined read op unit (ps ++ qs) = op (joined read op unit ps) (joined read op unit qs) := by
  induction ps with
  | nil => exact (Std.LawfulLeftIdentity.left_id (joined read op unit qs)).symm
  | cons p ps ih =>
    rw [List.cons_append, joined_cons, joined_cons, ih]
    exact (Std.Associative.assoc (read p) _ _).symm

/-- Flattening loses nothing, and stops only where a part is `never`. -/
theorem joined_conjuncts? (hand : ∀ ps, read (.and ps) = joined read op unit ps)
    (hnever : ∀ a, op (read .never) a = read .never ∧ op a (read .never) = read .never)
    (parts : List Condition) :
    joined read op unit parts =
      ((conjuncts? parts).map (joined read op unit)).getD (read .never) := by
  fun_induction conjuncts? parts with
  | case1 => rfl
  | case2 ps => exact (hnever _).1
  | case3 inner ps ih =>
    rw [joined_cons, hand, ih]
    cases conjuncts? ps with
    | none => exact (hnever _).2
    | some qs => exact (joined_append inner qs).symm
  | case4 p ps _ _ ih =>
    rw [joined_cons, ih]
    cases conjuncts? ps with
    | none => exact (hnever _).2
    | some qs => rfl

theorem read_all (hand : ∀ ps, read (.and ps) = joined read op unit ps)
    (hnever : ∀ a, op (read .never) a = read .never ∧ op a (read .never) = read .never)
    (parts : List Condition) : read (all parts) = joined read op unit parts := by
  rw [joined_conjuncts? hand hnever]
  unfold all
  split
  · rename_i h
    rw [h]
    rfl
  · rename_i p h
    rw [h]
    exact (joined_singleton p).symm
  · rename_i ps _ h
    rw [h, hand]
    rfl

theorem joined_disjuncts (hor : ∀ ps, read (.or ps) = joined read op unit ps)
    (hnever : read .never = unit) (parts : List Condition) :
    joined read op unit (disjuncts parts) = joined read op unit parts := by
  fun_induction disjuncts parts with
  | case1 => rfl
  | case2 ps ih =>
    rw [ih, joined_cons, hnever]
    exact (Std.LawfulLeftIdentity.left_id (joined read op unit ps)).symm
  | case3 inner ps ih => rw [joined_append, ih, joined_cons, hor]
  | case4 p ps _ _ ih => rw [joined_cons, joined_cons, ih]

theorem read_any (hor : ∀ ps, read (.or ps) = joined read op unit ps)
    (hnever : read .never = unit) (parts : List Condition) :
    read (any parts) = joined read op unit parts := by
  rw [← joined_disjuncts hor hnever]
  unfold any
  split
  · rename_i h
    rw [h, hnever]
    rfl
  · rename_i p h
    rw [h]
    exact (joined_singleton p).symm
  · rw [hor]

end Reading

/-! ## Rows -/

variable {row : Row}

theorem allHold_eq (parts : List Condition) : allHold row parts = parts.all (·.holds row) := by
  induction parts with
  | nil => rw [allHold, List.all_nil]
  | cons p ps ih => rw [allHold, List.all_cons, ih]

theorem anyHolds_eq (parts : List Condition) : anyHolds row parts = parts.any (·.holds row) := by
  induction parts with
  | nil => rw [anyHolds, List.any_nil]
  | cons p ps ih => rw [anyHolds, List.any_cons, ih]

theorem allHold_append (ps qs : List Condition) :
    allHold row (ps ++ qs) = (allHold row ps && allHold row qs) := by
  rw [allHold_eq, allHold_eq, allHold_eq, List.all_append]

theorem holds_and (parts : List Condition) : (and parts).holds row = allHold row parts := by
  rw [holds]

theorem holds_or (parts : List Condition) : (or parts).holds row = anyHolds row parts := by
  rw [holds]

theorem allHold_eq_joined (parts : List Condition) :
    allHold row parts = joined (·.holds row) (· && ·) true parts := by
  induction parts with
  | nil => rw [allHold]; rfl
  | cons p ps ih => rw [allHold, joined_cons, ih]

theorem anyHolds_eq_joined (parts : List Condition) :
    anyHolds row parts = joined (·.holds row) (· || ·) false parts := by
  induction parts with
  | nil => rw [anyHolds]; rfl
  | cons p ps ih => rw [anyHolds, joined_cons, ih]

theorem holds_all (parts : List Condition) : (all parts).holds row = allHold row parts := by
  rw [allHold_eq_joined]
  refine read_all (fun ps => by rw [holds_and, allHold_eq_joined]) (fun b => ?_) parts
  rw [holds, Bool.false_and, Bool.and_false]
  exact ⟨rfl, rfl⟩

theorem holds_any (parts : List Condition) : (any parts).holds row = anyHolds row parts := by
  rw [anyHolds_eq_joined]
  refine read_any (fun ps => by rw [holds_or, anyHolds_eq_joined]) ?_ parts
  rw [holds]

end Keyset.Condition
