import Keyset.Proofs.Value.Order

/-! # What compares equal

An integer is never at the place of a floating point number, nor a date at that
of a timestamp. So sort keys that compare equal are the same, and values that do
are the same but for integers of the two kinds (`sortKey_eq_iff`). The order of
values is total, and tells apart all that differs but these (`order_total`). -/

namespace Keyset

theorem Binary64.compareInteger_ne_eq (n : BitVec 128) (f : Binary64) :
    compareInteger n f ≠ .eq := by
  cases hf : f.isFinite with
  | true =>
    rw [compareInteger_eq (isNaN_of_isFinite hf)]
    split <;> exact Ordering.noConfusion
  | false =>
    rw [compareInteger_of_not_finite hf]
    split <;> exact Ordering.noConfusion

namespace Value

namespace SortKey

theorem eq_of_order_eq {a b : SortKey} (h : a.order b = .eq) : a = b := by
  by_cases hg : a.group = b.group
  · cases a <;> cases b <;> simp only [order, group] at h hg <;> try contradiction
    case integer.float n f => exact absurd h (Binary64.compareInteger_ne_eq n f)
    case float.integer f n =>
      rw [Ordering.swap_eq_eq] at h
      exact absurd h (Binary64.compareInteger_ne_eq n f)
    case float.float f g => rw [Binary64.eq_of_rank_eq (Std.LawfulEqOrd.eq_of_compare h)]
    case moment.moment s m a t n b =>
      obtain ⟨hs, hrest⟩ := Ordering.then_eq_eq.mp h
      obtain ⟨hm, ha⟩ := Ordering.then_eq_eq.mp hrest
      rw [Std.LawfulEqOrd.eq_of_compare hs, Std.LawfulEqOrd.eq_of_compare hm,
        Std.LawfulEqOrd.eq_of_compare ha]
    case integer.integer m n => rw [BitVec.toInt_inj.mp (Std.LawfulEqOrd.eq_of_compare h)]
    case null.null => rfl
    all_goals rw [Std.LawfulEqOrd.eq_of_compare h]
  · rw [order_of_group_ne hg, Nat.compare_eq_eq] at h
    exact absurd h hg

end SortKey

/-- Integers of the two kinds that are one number. -/
def SameInteger : Value → Value → Prop
  | .int m, .uint n => m.toInt = n.toNat
  | .uint m, .int n => (m.toNat : Int) = n.toInt
  | _, _ => False

theorem toInt_signed (n : Int64) : (n.toBitVec.signExtend 128).toInt = n.toInt :=
  BitVec.toInt_signExtend_of_le (by decide)

theorem toInt_unsigned (n : UInt64) : (n.toBitVec.setWidth 128).toInt = n.toNat := by
  have hlt := n.toNat_lt
  have hnat : (n.toBitVec.setWidth 128).toNat = n.toNat := BitVec.toNat_setWidth_of_le (by decide)
  rw [BitVec.toInt_eq_toNat_of_lt (by omega), hnat]

/-- The content of a value is in its sort key, and so is its kind but for integers. -/
theorem sortKey_eq_iff {a b : Value} : a.sortKey = b.sortKey ↔ a = b ∨ SameInteger a b := by
  cases a <;> cases b
  case int.int m n =>
    simp only [sortKey, SortKey.integer.injEq, SameInteger, or_false, int.injEq]
    rw [← BitVec.toInt_inj, toInt_signed, toInt_signed, Int64.toInt_inj]
  case uint.uint m n =>
    simp only [sortKey, SortKey.integer.injEq, SameInteger, or_false, uint.injEq]
    rw [← BitVec.toInt_inj, toInt_unsigned, toInt_unsigned, Int.natCast_inj, UInt64.toNat_inj]
  case int.uint m n =>
    simp only [sortKey, SortKey.integer.injEq, SameInteger, reduceCtorEq, false_or]
    rw [← BitVec.toInt_inj, toInt_signed, toInt_unsigned]
  case uint.int m n =>
    simp only [sortKey, SortKey.integer.injEq, SameInteger, reduceCtorEq, false_or]
    rw [← BitVec.toInt_inj, toInt_signed, toInt_unsigned]
  case uuid.uuid u v =>
    cases u
    cases v
    simp only [sortKey, SortKey.uuid.injEq, SameInteger, or_false, uuid.injEq, Uuid.mk.injEq]
    rw [BitVec.toNat_inj]
  case date.date d e =>
    simp only [sortKey, SortKey.moment.injEq, SameInteger, or_false, date.injEq, and_true]
    rw [Int.mul_eq_mul_right_iff (by decide)]
    exact ⟨Date.ext_day, fun h => h ▸ rfl⟩
  case timestamp.timestamp t u =>
    simp only [sortKey, SortKey.moment.injEq, SameInteger, or_false, timestamp.injEq, and_true]
    exact ⟨fun h => Timestamp.ext_parts h.1 h.2, fun h => h ▸ ⟨rfl, rfl⟩⟩
  all_goals simp [sortKey, SameInteger]

theorem order_eq_eq_iff {a b : Value} : a.order b = .eq ↔ a = b ∨ SameInteger a b := by
  rw [← sortKey_eq_iff]
  refine ⟨SortKey.eq_of_order_eq, fun h => ?_⟩
  rw [order, h]
  exact Std.ReflCmp.compare_self

/-- **The order of values is total**, over all kinds and all that they can hold. Only what is the
same compares equal, and integers of the two kinds that are one number. -/
theorem order_total (a b c : Value) : a.order a = .eq ∧ b.order a = (a.order b).swap ∧
    ((a.order b).isLE → (b.order c).isLE → (a.order c).isLE) ∧
    (a.order b = .eq ↔ a = b ∨ SameInteger a b) :=
  ⟨Std.ReflCmp.compare_self, Std.OrientedCmp.eq_swap, Std.TransCmp.isLE_trans, order_eq_eq_iff⟩

/-- Two neighbours, and a floating point number that is nearest to both of them. -/
theorem order_total_neighbours :
    let a := Value.uint 9007199254740992
    let b := Value.float ⟨0x4340000000000000⟩
    let c := Value.int 9007199254740993
    (a.order b).isLE ∧ (b.order c).isLE ∧ (a.order c).isLE ∧ a.order c ≠ .eq := by
  intro a b c
  have hab : (a.order b).isLE := by decide
  have hbc : (b.order c).isLE := by decide
  obtain ⟨-, -, htrans, -⟩ := order_total a b c
  obtain ⟨-, -, -, hequal⟩ := order_total a c b
  exact ⟨hab, hbc, htrans hab hbc, fun h => absurd (hequal.mp h) (by simp [a, c, SameInteger])⟩

end Value

end Keyset
