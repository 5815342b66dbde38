import Keyset.Proofs.Order.Fingerprint
import Keyset.Proofs.Order.Key
import Keyset.Proofs.Order.Text

/-! # A fingerprint identifies the order of rows

Names that are read have no commas, so the text of a fingerprint is as good as
the signature: name up to letter case, direction and null place of each key
column. Rows compare by nothing else, since a row is asked for a value up to
letter case too (`compareRows_eq_of_signature`). What an ordering says beyond
its signature is whether a column may hold null and what stands behind the
first distinct column, and neither counts (`key_of_columns_alike`). -/

namespace Keyset

open Text

theorem Row.value_eq_of_fold {m n : String} (h : fold m = fold n) (row : Row) :
    row.value m = row.value n := by
  have hfield : row.field? m = row.field? n := by
    rw [Row.field?, Row.field?]
    simp only [sameFolded, h]
  rw [Row.value, Row.value, hfield]

namespace SortColumn

/-- The columns are one but for letter case and for being nullable. -/
structure Alike (c d : SortColumn) : Prop where
  signature : c.signature = d.signature
  distinct : c.distinct = d.distinct

theorem order_eq_of_signature {c d : SortColumn} (h : c.signature = d.signature) (a b : Value) :
    c.order a b = d.order a b := by
  rw [signature, signature, Prod.mk.injEq, Prod.mk.injEq] at h
  obtain ⟨-, hdirection, hnulls⟩ := h
  rw [order, order, hdirection, hnulls]

end SortColumn

namespace SortOrder

variable {a b : SortOrder}

theorem commaFree_of_ofText {s : String} (h : ofText s = .ok a) : a.CommaFree := by
  intro c hc
  exact (spellable_of_ofText h c (mem_columns_of_mem_key hc)).comma

/-! ## Rows compare by the signature -/

theorem lexicographic_eq_of_signatures {cs ds : List SortColumn}
    (h : cs.map SortColumn.signature = ds.map SortColumn.signature) (x y : Row) :
    lexicographic cs x.value y.value = lexicographic ds x.value y.value := by
  induction cs generalizing ds with
  | nil =>
    rw [List.map_nil, eq_comm, List.map_eq_nil_iff] at h
    rw [h]
  | cons c cs ih =>
    cases ds with
    | nil => cases h
    | cons d ds =>
      rw [List.map_cons, List.map_cons, List.cons.injEq] at h
      obtain ⟨hsignature, hrest⟩ := h
      have hname : fold c.name = fold d.name := congrArg Prod.fst hsignature
      rw [lexicographic_cons, lexicographic_cons, Row.value_eq_of_fold hname x,
        Row.value_eq_of_fold hname y, SortColumn.order_eq_of_signature hsignature, ih hrest]

theorem compareRows_eq_of_signature (h : a.signature = b.signature) (x y : Row) :
    a.compareRows x y = b.compareRows x y := by
  rw [compareRows_eq, compareRows_eq]
  exact lexicographic_eq_of_signatures h x y

/-! ## What is not in the signature -/

/-- Columns that are alike end the key at the same place. -/
theorem key_of_columns_alike {key rest : List SortColumn} (hb : b.columns = key ++ rest)
    (h : List.Forall₂ SortColumn.Alike a.key key) : b.key = key := by
  rw [SortOrder.key, hb]
  refine upToDistinct_append rest a.columns_any_distinct (h.imp ?_)
  intro c d halike
  exact halike.distinct

theorem signature_eq_of_columns_alike {key rest : List SortColumn} (hb : b.columns = key ++ rest)
    (h : List.Forall₂ SortColumn.Alike a.key key) : a.signature = b.signature := by
  have hmapped : List.Forall₂ Eq (a.key.map SortColumn.signature)
      (key.map SortColumn.signature) := by
    rw [List.forall₂_map_left_iff, List.forall₂_map_right_iff]
    exact h.imp fun _ _ halike => halike.signature
  rw [signature, signature, key_of_columns_alike hb h]
  rwa [List.forall₂_eq_eq_eq] at hmapped

/-- **The text of a fingerprint identifies the order it stands for.** Of two orderings that were
read, the texts are equal exactly if the key columns agree, in number and one by one, in the name up
to letter case, the direction and the null place. Then any two rows compare the same. Both are so if
the key columns of one are those of the other but for letter case and for being nullable, whatever
columns stand behind the first distinct one. -/
theorem fingerprintText_identifies {s t : String} (ha : ofText s = .ok a) (hb : ofText t = .ok b) :
    (a.fingerprintText = b.fingerprintText ↔ a.signature = b.signature) ∧
    (a.fingerprintText = b.fingerprintText → ∀ x y, a.compareRows x y = b.compareRows x y) ∧
    (∀ key rest, b.columns = key ++ rest → List.Forall₂ SortColumn.Alike a.key key →
      a.fingerprintText = b.fingerprintText ∧ ∀ x y, a.compareRows x y = b.compareRows x y) := by
  have hiff : a.fingerprintText = b.fingerprintText ↔ a.signature = b.signature :=
    fingerprintText_eq_iff (commaFree_of_ofText ha) (commaFree_of_ofText hb)
  refine ⟨hiff, ?_, ?_⟩
  · intro htext x y
    exact compareRows_eq_of_signature (hiff.mp htext) x y
  · intro key rest hcolumns halike
    have hsignature := signature_eq_of_columns_alike hcolumns halike
    refine ⟨hiff.mpr hsignature, ?_⟩
    intro x y
    exact compareRows_eq_of_signature hsignature x y

end SortOrder

/-- The latest posts, those without a date first. -/
def Post.latest : SortOrder :=
  ⟨[⟨"created_at", .descending, false, false, none⟩, ⟨"id", .ascending, false, true, none⟩],
    by decide⟩

/-- The latest posts in other words, with a column that does not matter. -/
def Post.latestTitled : SortOrder :=
  ⟨[⟨"Created_At", .descending, true, false, some .first⟩, ⟨"ID", .ascending, false, true, none⟩,
    ⟨"title", .ascending, false, false, none⟩], by decide⟩

/-- The other words have the same fingerprint and the same order. -/
theorem Post.latest_identified :
    SortOrder.ofText "created_at:desc,id:distinct" = .ok latest ∧
    SortOrder.ofText "Created_At:nulls-first:nullable:desc, ID:distinct, title" =
      .ok latestTitled ∧
    latest.fingerprintText = "created_at:d:f,id:a:l" ∧
    latestTitled.fingerprintText = "created_at:d:f,id:a:l" ∧
    ∀ x y, latest.compareRows x y = latestTitled.compareRows x y := by
  have hlatest : SortOrder.ofText "created_at:desc,id:distinct" = .ok latest := by rfl
  have htitled : SortOrder.ofText "Created_At:nulls-first:nullable:desc, ID:distinct, title" =
      .ok latestTitled := by rfl
  obtain ⟨-, -, hwords⟩ := SortOrder.fingerprintText_identifies hlatest htitled
  have halike : List.Forall₂ SortColumn.Alike latest.key (latestTitled.columns.take 2) :=
    .cons ⟨by decide, rfl⟩ (.cons ⟨by decide, rfl⟩ .nil)
  obtain ⟨htext, hrows⟩ := hwords _ [.named "title"] (by decide) halike
  have hfirst : latest.fingerprintText = "created_at:d:f,id:a:l" := by decide
  exact ⟨hlatest, htitled, hfirst, htext.symm.trans hfirst, hrows⟩

end Keyset
