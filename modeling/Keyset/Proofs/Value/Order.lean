import Keyset.Proofs.Number.Exact
import Keyset.Value.Compare

/-! # The order of values is total

The order of sort keys is written by cases on the kinds. It is the
lexicographic order of three things that each have one: the group, a list of
integers and a text (`SortKey.order_eq`). Hence comparisons of values reverse
when the sides do, and are transitive across all kinds. -/

namespace Keyset.Value

namespace SortKey

/-- The numbers that decide within a group, the most important first. -/
def figures : SortKey → List Int
  | .boolean b => [b.toInt]
  | .integer n => [0, n.toInt * 2 ^ Binary64.places, 0]
  | .float f => f.figures
  | .uuid n => [n]
  | .moment s n t => [s, n, t.toInt]
  | .string _ | .null => []

/-- The text that decides within the group of strings. -/
def letters : SortKey → String
  | .string s => s
  | _ => ""

theorem compare_toInt (a b : Bool) : compare a.toInt b.toInt = compare a b := by
  cases a <;> cases b <;> rfl

theorem compare_natCast (m n : Nat) : compare (m : Int) (n : Int) = compare m n := by
  simp only [compare, compareOfLessAndEq, Int.ofNat_lt, Int.natCast_inj]

theorem compare_mul_right {k : Int} (h : 0 < k) (m n : Int) :
    compare (m * k) (n * k) = compare m n := by
  simp only [compare, compareOfLessAndEq, Int.mul_lt_mul_right h,
    Int.mul_eq_mul_right_iff (Int.ne_of_gt h)]

theorem order_of_group_ne {a b : SortKey} (h : a.group ≠ b.group) :
    a.order b = compare a.group b.group := by
  cases a <;> cases b <;> first | rfl | exact absurd rfl h

theorem order_of_group_eq {a b : SortKey} (h : a.group = b.group) :
    a.order b = (compare a.figures b.figures).then (compare a.letters b.letters) := by
  -- most pairs of kinds are of two groups; the rest have a comparison of their own
  cases a <;> cases b <;> first
    | (simp only [group] at h; contradiction)
    | simp only [order, figures, letters, List.compare_cons_cons, Std.ReflOrd.compare_self,
        Ordering.then_eq, Ordering.eq_then]
  case boolean.boolean a b => rw [compare_toInt]
  case integer.integer m n => rw [compare_mul_right (Int.pow_pos (by decide : (0 : Int) < 2))]
  case integer.float m g => exact (Binary64.compare_figures_integer m g).symm
  case float.integer f n =>
    rw [← Binary64.compare_figures_integer n f]
    exact Std.OrientedOrd.eq_swap.symm
  case float.float f g => exact (Binary64.compare_figures f g).symm
  case uuid.uuid m n => rw [compare_natCast]
  case moment.moment s m a t n b => rw [compare_natCast, compare_toInt]

/-- Groups decide first, then figures, then letters. -/
theorem order_eq (a b : SortKey) : a.order b = compareLex (compareOn group)
    (compareLex (compareOn figures) (compareOn letters)) a b := by
  simp only [compareLex, compareOn]
  by_cases h : a.group = b.group
  · rw [order_of_group_eq h, h, Std.ReflOrd.compare_self, Ordering.eq_then]
  · rw [order_of_group_ne h]
    cases hc : compare a.group b.group with
    | eq => exact absurd (Nat.compare_eq_eq.mp hc) h
    | lt | gt => rfl

instance : Std.TransCmp order := by
  rw [show order = _ from funext fun a => funext (order_eq a)]
  infer_instance

end SortKey

instance : Std.TransCmp order where
  eq_swap {a b} := (Std.OrientedCmp.eq_swap : a.sortKey.order b.sortKey = _)
  isLE_trans {a _ c} hab hbc :=
    (Std.TransCmp.isLE_trans hab hbc : (a.sortKey.order c.sortKey).isLE)

end Keyset.Value
