import Keyset.Proofs.Condition.Seek
import Keyset.Proofs.Sql.Truth
import Keyset.Source.Memory
import Keyset.Source.SqlTable

/-! # A database answers as a table in memory

The query for a request means what the request asks for: its filter holds of
the rows that satisfy the condition (`holds_expr`), and its sort terms order
complete rows as the ordering does (`order_key`). Null placement matters only
where null is allowed, and there the query states it. So a database answers
with the rows that a table in memory has for the request, if the table holds
the rows of which the filter of the database is true (`run_query`). -/

namespace Keyset

open Sql SortOrder

variable {db : Database} {table : String} {qualifier : Option String} {row : Row}

/-- The expression of a condition is true of the rows that satisfy it. -/
theorem Condition.holds_expr (h : ∀ q ∈ qualifier, q = table) (c : Condition) :
    db.holds table row (c.expr qualifier) = c.holds row := by
  rw [Bool.eq_iff_iff, Database.holds_iff_verdict, verdict_expr h, truth_eq_true_iff]

/-! ## Orderings -/

namespace Sql.Database

theorem arrange_eq (c : SortColumn) (a b : Value) :
    arrange c.direction c.nullPlace a b = c.order a b := by
  unfold arrange Value.compare? SortColumn.order
  cases ha : a.isNull <;> cases hb : b.isNull <;> cases c.direction <;> cases c.nullPlace <;>
    simp <;> rfl

/-- The place of null does not matter between values. -/
theorem arrange_eq_of_not_null {a b : Value} (direction : Direction) (nulls place : NullPlace)
    (ha : a.isNull = false) (hb : b.isNull = false) :
    arrange direction nulls a b = arrange direction place a b := by
  have hknown : a.compare? b = some (a.order b) := if_neg (by simp [ha, hb])
  unfold arrange
  rw [hknown]
  cases direction <;> rfl

/-- The sort term of a column orders rows as the column does, if they have the values that it
must have. -/
theorem orderBy_term (h : ∀ q ∈ qualifier, q = table) {c : SortColumn} {a b : Row}
    (ha : c.nullable = false → (a.value c.name).isNull = false)
    (hb : c.nullable = false → (b.value c.name).isNull = false) :
    db.orderBy table (c.term qualifier) a b = c.order (a.value c.name) (b.value c.name) := by
  rw [← arrange_eq]
  simp only [orderBy, SortColumn.term, value_column h, Option.getD_some]
  cases hn : c.nullable with
  | true => rfl
  | false => exact arrange_eq_of_not_null _ _ _ (ha hn) (hb hn)

theorem order_terms (h : ∀ q ∈ qualifier, q = table) {cs : List SortColumn} {a b : Row}
    (ha : ∀ c ∈ cs, c.nullable = false → (a.value c.name).isNull = false)
    (hb : ∀ c ∈ cs, c.nullable = false → (b.value c.name).isNull = false) :
    db.order table (cs.map (·.term qualifier)) a b = lexicographic cs a.value b.value := by
  induction cs with
  | nil => rfl
  | cons c cs ih =>
    have hrest := ih (fun d hd => ha d (List.mem_cons_of_mem c hd))
      (fun d hd => hb d (List.mem_cons_of_mem c hd))
    rw [List.map_cons, order, lexicographic_cons, hrest,
      orderBy_term h (ha c List.mem_cons_self) (hb c List.mem_cons_self)]

/-- The sort terms of the key order complete rows as the ordering does. -/
theorem order_key (h : ∀ q ∈ qualifier, q = table) {o : SortOrder} {a b : Row}
    (ha : o.Complete a) (hb : o.Complete b) :
    db.order table (o.key.map (·.term qualifier)) a b = o.compareRows a b := by
  rw [order_terms h ha hb, compareRows_eq]

/-- The sort terms sort complete rows as the ordering does. -/
theorem sort_key (h : ∀ q ∈ qualifier, q = table) {o : SortOrder} {rows : List Row}
    (hrows : ∀ row ∈ rows, o.Complete row) :
    (rows.mergeSort fun a b => (db.order table (o.key.map (·.term qualifier)) a b).isLE) =
      o.sort rows := by
  have hmap := List.map_mergeSort (f := id) (l := rows)
    (r := fun a b => (db.order table (o.key.map (·.term qualifier)) a b).isLE)
    (s := fun a b => (o.compareRows a b).isLE)
    fun a ha b hb => by rw [order_key h (hrows a ha) (hrows b hb)]; rfl
  rw [List.map_id, List.map_id] at hmap
  exact hmap

end Sql.Database

/-! ## Queries -/

theorem Sql.Select.foldl_orderedBy (s : Select) (terms : List SortTerm) :
    terms.foldl orderedBy s = { s with order := s.order ++ terms } := by
  induction terms generalizing s with
  | nil => rw [List.foldl_nil, List.append_nil]
  | cons t ts ih => rw [List.foldl_cons, ih, orderedBy, List.append_assoc]; rfl

namespace SqlTable

/-- The name of the table in its queries. -/
def visibleName (t : SqlTable) : String := TableReference.visibleName ⟨t.table, t.label⟩

/-- The rows that the table has for every request: those of which its filter is true. -/
def visible (t : SqlTable) (db : Database) : MemoryTable :=
  ⟨t.table.name, (db.rows t.table).filter fun row => t.filter.all (db.holds t.visibleName row)⟩

/-- The query of a request, clause by clause. -/
theorem query_eq (t : SqlTable) (q : Request) : t.query q =
    { columns := [.everything]
      source := some ⟨t.table, t.label⟩
      filter := match t.filter, q.condition.map (·.expr t.label) with
        | some e, some f => some (e.and f)
        | some e, none => some e
        | none, f => f
      order := q.order.key.map (·.term t.label)
      limit := some (.bound (.uint q.limit)) } := by
  unfold query Select.seek
  simp only [Select.foldl_orderedBy]
  cases t.filter <;> cases q.condition <;> rfl

/-- **A database answers as a table in memory.** Whatever filter and other name a table has and
whatever the standard leaves to the database: if the rows of the table are complete, running the
query for a request gives the rows that a table in memory answers the request with, if that holds
the rows of which the filter is true. -/
theorem run_query (db : Database) (t : SqlTable) (q : Request)
    (complete : ∀ row ∈ db.rows t.table, q.order.Complete row) :
    db.run (t.query q) = some ((t.visible db).fetch q) := by
  have hname : ∀ label ∈ t.label, label = t.visibleName := by
    intro label hlabel
    rw [visibleName, TableReference.visibleName, hlabel, Option.getD_some]
  have hkept : (db.rows t.table).filter (fun row =>
      (t.query q).filter.all (db.holds t.visibleName row)) = (t.visible db).matching q := by
    rw [MemoryTable.matching, visible, List.filter_filter]
    refine List.filter_congr fun row _ => ?_
    rw [query_eq]
    cases t.filter <;> cases q.condition <;>
      simp [Database.holds_and, Condition.holds_expr hname, Bool.and_comm]
  have hcomplete : ∀ row ∈ (t.visible db).matching q, q.order.Complete row := by
    intro row hrow
    have hvisible := (List.mem_filter.mp hrow).1
    exact complete row (List.mem_filter.mp hvisible).1
  calc db.run (t.query q)
      = Database.limited (((db.rows t.table).filter fun row =>
          (t.query q).filter.all (db.holds t.visibleName row)).mergeSort fun a b =>
            (db.order t.visibleName (q.order.key.map (·.term t.label)) a b).isLE)
          (some (.bound (.uint q.limit))) := by rw [query_eq]; rfl
    _ = some ((t.visible db).fetch q) := by
      rw [hkept, Database.sort_key hname hcomplete]
      rfl

end SqlTable

/-- A table of posts of which those with a score above 3 are shown. -/
def Post.shown : SqlTable :=
  ⟨⟨none, "posts"⟩, some "p",
    some (.binary (.column (some "p") "score") .greater (.bound (.int 3))), .postgres⟩

/-- A database that takes nothing but truth values for true or false. -/
def Post.database : Database :=
  ⟨fun _ => [scored 1 (some 3), scored 2 none, scored 3 (some 9), scored 4 (some 7)],
    fun _ => none, fun _ _ => .null, fun _ => .first⟩

/-- The position of post 3, which has a score of 9. -/
def Post.third : Cursor := .ofPairs [("score", .int 9), ("id", .int 3)]

def Post.behindThird : Request := ⟨ranking, (third.lowerBound ranking).toOption.join, 20⟩

/-- The rows behind are those with lower scores and without one; the filter leaves post 4. -/
theorem Post.run_shown : database.run (shown.query behindThird) = some [scored 4 (some 7)] := by
  have hmatching : (shown.visible database).matching behindThird = [scored 4 (some 7)] := by decide
  rw [SqlTable.run_query database shown behindThird (by decide), MemoryTable.fetch, hmatching,
    sort_eq_of_ascending (List.pairwise_singleton _ _) (List.Perm.refl _)]
  rfl

end Keyset
