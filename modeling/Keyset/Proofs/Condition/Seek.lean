import Keyset.Traversal
import Keyset.Proofs.Condition.Joined
import Keyset.Proofs.Cursor.Position
import Keyset.Proofs.Order.Missing

/-! # Seeking is the order of rows

The condition for the rows behind a cursor is put together column by column,
with cases for null on either side. On complete rows it holds exactly behind
the cursor in the order of rows: `past` is "greater" in the order of the column
(`holds_past`), `tied` is "equal" (`holds_tied`), and the disjuncts make the
lexicographic order of them (`anyHolds_disjuncts_iff`). Rows behind the cursor
that lack a value may be passed over (`holds_lowerBound_iff`). -/

namespace Keyset

open SortOrder

namespace SortColumn

variable {c : SortColumn} {bound : Value} {row : Row}

theorem accepts_behind {a b : Value} (ha : a.isNull = false) (hb : b.isNull = false) :
    c.direction.behind.accepts (a.order b) = true ↔ c.order a b = .gt := by
  simp only [order, ha, hb]
  cases c.direction <;> simp [Direction.behind, Comparison.accepts]

/-- What a column has behind a bound, but for a value that it lacks. -/
theorem holds_past : (c.past bound).holds row = true ↔
    c.order (row.value c.name) bound = .gt ∧ c.lacks (row.value c.name) = false := by
  unfold past
  cases hb : bound.isNull with
  | true =>
    -- behind null is what is not null, if null comes first
    rw [if_pos rfl]
    cases hp : c.nullPlace <;> cases hv : (row.value c.name).isNull <;>
      simp [Condition.holds, order, lacks, hv, hb, hp]
  | false =>
    rw [if_neg Bool.false_ne_true]
    cases hv : (row.value c.name).isNull with
    | false =>
      have hvalue : c.lacks (row.value c.name) = false := by simp [lacks, hv]
      rw [← accepts_behind hv hb, and_iff_left hvalue]
      by_cases hl : c.nullable = true ∧ c.nullPlace = .last
      · rw [if_pos hl]
        simp [Condition.holds_any, Condition.anyHolds, Condition.holds, hv, hb]
      · rw [if_neg hl]
        simp [Condition.holds, hv, hb]
    | true =>
      -- null is looked for behind the bound if the column allows it there
      cases hn : c.nullable <;> cases hp : c.nullPlace <;>
        simp [Condition.holds_any, Condition.anyHolds, Condition.holds, order, lacks, hv, hb,
          hn, hp]

theorem holds_tied :
    (c.tied bound).holds row = true ↔ c.order (row.value c.name) bound = .eq := by
  unfold tied
  cases hb : bound.isNull <;> cases hv : (row.value c.name).isNull
  · simp only [Bool.false_eq_true, if_false, Condition.holds, order, hv, hb]
    cases c.direction <;> simp [Comparison.accepts]
  · cases hp : c.nullPlace <;> simp [Condition.holds, order, hv, hb, hp]
  · cases hp : c.nullPlace <;> simp [Condition.holds, order, hv, hb, hp]
  · simp [Condition.holds, order, hv, hb]

end SortColumn

namespace Cursor

/-- The disjuncts hold of the rows that satisfy what pins the columns before,
and are reached on the columns. -/
theorem anyHolds_disjuncts_iff {c : Cursor} {row : Row} {columns : List SortColumn}
    (hset : ∀ column ∈ columns, c.find? column.name = some (c.bound column.name))
    (pinned : List Condition) :
    Condition.anyHolds row (c.disjuncts pinned columns) = true ↔
      Condition.allHold row pinned = true ∧ Reaches columns row.value c.bound := by
  induction columns generalizing pinned with
  | nil => simp [disjuncts, Condition.anyHolds, Reaches, lexicographic]
  | cons column columns ih =>
    have hpast : (column.past (c.bound column.name)).holds row = true ↔
        column.order (row.value column.name) (c.bound column.name) = .gt ∧
          column.lacks (row.value column.name) = false := SortColumn.holds_past
    have htied : (column.tied (c.bound column.name)).holds row = true ↔
        column.order (row.value column.name) (c.bound column.name) = .eq :=
      SortColumn.holds_tied
    have hrest := ih (fun d hd => hset d (List.mem_cons_of_mem column hd))
      (pinned ++ [column.tied (c.bound column.name)])
    rw [disjuncts, hset column (by simp)]
    simp only [Condition.anyHolds, Condition.holds_all, Condition.allHold_append,
      Condition.allHold, Bool.and_true, Bool.or_eq_true, Bool.and_eq_true, hrest, hpast, htied,
      reaches_cons]
    constructor
    · rintro (⟨hp, hgt⟩ | ⟨⟨hp, heq⟩, hgt⟩)
      · exact ⟨hp, Or.inl hgt⟩
      · exact ⟨hp, Or.inr ⟨heq, hgt⟩⟩
    · rintro ⟨hp, hgt | ⟨heq, hgt⟩⟩
      · exact Or.inl ⟨hp, hgt⟩
      · exact Or.inr ⟨⟨hp, heq⟩, hgt⟩

theorem lowerBound_of_fit {c : Cursor} {o : SortOrder} {k : Nat} (h : c.fit o = .ok k)
    (hk : 1 ≤ k) :
    c.lowerBound o = .ok (some (.any (c.disjuncts [] (o.key.take k)))) := by
  have hne : k ≠ 0 := by omega
  simp only [lowerBound, h, bind, Except.bind, if_neg hne]
  rfl

/-- A row satisfies the condition for the rows behind a cursor exactly if it is
behind it in the order of rows and not passed over. -/
theorem holds_lowerBound_iff {c : Cursor} {o : SortOrder} {k : Nat} (h : c.fit o = .ok k)
    (row : Row) :
    (Condition.any (c.disjuncts [] (o.key.take k))).holds row = true ↔
      Reaches (o.key.take k) row.value c.bound := by
  have hset : ∀ column ∈ o.key.take k, c.find? column.name = some (c.bound column.name) := by
    rw [← (fit_eq_ok h).1]
    exact fun column => sets_of_mem_leading
  rw [Condition.holds_any, anyHolds_disjuncts_iff hset []]
  simp [Condition.allHold]

/-- A complete row is never passed over. -/
theorem holds_lowerBound {c : Cursor} {o : SortOrder} {k : Nat} (h : c.fit o = .ok k)
    {row : Row} (hrow : o.Complete row) :
    (Condition.any (c.disjuncts [] (o.key.take k))).holds row = true ↔
      lexicographic (o.key.take k) row.value c.bound = .gt := by
  rw [holds_lowerBound_iff h]
  exact and_iff_left (passedOver_of_complete fun column hc => hrow column (List.mem_of_mem_take hc))

/-! ## The condition and the order -/

/-- **The condition for the rows behind a cursor is the order of rows.** For a
cursor that fits and sets `k` columns there is such a condition. A complete row
satisfies it exactly if the first of these columns on which the row differs
from the cursor exists and has the row behind. For the position of a row, these
are the rows that compare greater. -/
theorem lowerBound_iff_behind (o : SortOrder) (ho : o.Trimmed) :
    (∀ (c : Cursor) (k : Nat), c.fit o = .ok k → 1 ≤ k →
      ∃ p, c.lowerBound o = .ok (some p) ∧ ∀ row, o.Complete row →
        (p.holds row = true ↔ ((o.key.take k).map fun column =>
          column.order (row.value column.name) (c.bound column.name)).find? (· ≠ .eq) = some .gt)) ∧
    (∀ (a : Row) (c : Cursor), Cursor.ofRow o a = .ok c →
      ∃ p, c.lowerBound o = .ok (some p) ∧ ∀ row, o.Complete row →
        (p.holds row = true ↔ o.compareRows row a = .gt)) := by
  constructor
  · intro c k hfit hk
    refine ⟨_, lowerBound_of_fit hfit hk, fun row hrow => ?_⟩
    rw [holds_lowerBound hfit hrow, lexicographic_eq_gt_iff]
  · intro a c hc
    have hfit := fit_ofRow ho hc
    have hk : 1 ≤ o.key.length := List.length_pos_iff.mpr o.key_ne_nil
    refine ⟨_, lowerBound_of_fit hfit hk, fun row hrow => ?_⟩
    rw [holds_lowerBound hfit hrow, List.take_length, compareRows_eq,
      lexicographic_congr fun column hm => bound_ofRow ho hc hm]

end Cursor

/-- Posts by their score, the highest first, behind those without a score. -/
def Post.ranking : SortOrder :=
  ⟨[⟨"score", .descending, true, false, none⟩, ⟨"id", .ascending, false, true, none⟩], by decide⟩

def Post.four : MemoryTable :=
  ⟨"posts", [scored 1 (some 3), scored 2 none, scored 3 none, scored 4 (some 7)]⟩

/-- The position of post 2, which has no score. -/
def Post.second : Cursor := .ofPairs [("score", .null), ("id", .int 2)]

/-- Behind post 2 in the ranking are the others. -/
theorem Post.behind_second : ∃ p, second.lowerBound ranking = .ok (some p) ∧
    four.rows.map p.holds = [true, false, true, true] := by
  obtain ⟨p, hp, hiff⟩ :=
    (Cursor.lowerBound_iff_behind ranking (by decide)).1 second 2 (by decide) (by decide)
  refine ⟨p, hp, ?_⟩
  have hrow : ∀ row ∈ four.rows, p.holds row = decide (((ranking.key.take 2).map fun column =>
      column.order (row.value column.name) (second.bound column.name)).find? (· ≠ .eq) =
        some .gt) := by
    intro row hm
    have hc : ∀ row ∈ four.rows, ranking.Complete row := by decide
    rw [Bool.eq_iff_iff, decide_eq_true_eq]
    exact hiff row (hc row hm)
  rw [List.map_congr_left hrow]
  decide

end Keyset
