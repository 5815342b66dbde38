import Keyset.Proofs.Cursor.Fit
import Mathlib.Data.List.Forall2
import Mathlib.Data.Option.Defs

/-! # The shape of a seek condition

The condition behind a cursor depends on two things: which columns the cursor
holds null in, and the other values, which are carried along and not looked at.
Two cursors that set the same key columns, and null in the same ones, therefore
fit alike (`SameShape.fit_eq`) and have conditions of one shape
(`SameShape.lowerBound_alike`), which differ in the values that the cursors hold
for one and the same column (`Cursor.Beside`). -/

namespace Keyset

/-! ## Conditions of one shape -/

/-- Conditions of one shape, with values that are related. -/
inductive Condition.Alike (V : Value → Value → Prop) : Condition → Condition → Prop
  | never : Alike V .never .never
  | compare {v v' : Value} (column : String) (op : Comparison) (hv : V v v') :
      Alike V (.compare column op v) (.compare column op v')
  | isNull (column : String) (negated : Bool) :
      Alike V (.isNull column negated) (.isNull column negated)
  | and {ps ps' : List Condition} (h : List.Forall₂ (Alike V) ps ps') : Alike V (.and ps) (.and ps')
  | or {ps ps' : List Condition} (h : List.Forall₂ (Alike V) ps ps') : Alike V (.or ps) (.or ps')

/-- Both null, or neither and related. -/
inductive Value.NullTogether (V : Value → Value → Prop) : Value → Value → Prop
  | null : NullTogether V .null .null
  | value {v v' : Value} (hv : v.isNull = false) (hv' : v'.isNull = false) (h : V v v') :
      NullTogether V v v'

variable {V : Value → Value → Prop}

namespace Condition

theorem conjuncts?_alike {ps ps' : List Condition} (h : List.Forall₂ (Alike V) ps ps') :
    Option.Rel (List.Forall₂ (Alike V)) (conjuncts? ps) (conjuncts? ps') := by
  have hmore {qs qs' : List Condition} {r r' : Option (List Condition)}
      (hq : List.Forall₂ (Alike V) qs qs') (hr : Option.Rel (List.Forall₂ (Alike V)) r r') :
      Option.Rel (List.Forall₂ (Alike V)) (r.map (qs ++ ·)) (r'.map (qs' ++ ·)) := by
    cases hr with
    | none => exact .none
    | some hr => exact .some (List.rel_append hq hr)
  induction h with
  | nil => exact .some .nil
  | cons hp _ ih =>
    cases hp with
    | never => exact .none
    | compare column op hv => exact hmore (.cons (.compare column op hv) .nil) ih
    | isNull column negated => exact hmore (.cons (.isNull column negated) .nil) ih
    | and hinner => exact hmore hinner ih
    | or hinner => exact hmore (.cons (.or hinner) .nil) ih

theorem all_alike {ps ps' : List Condition} (h : List.Forall₂ (Alike V) ps ps') :
    Alike V (all ps) (all ps') := by
  have hparts := conjuncts?_alike h
  unfold all
  -- as many parts are left on both sides, so both are simplified in one way
  cases hp : conjuncts? ps <;> cases hp' : conjuncts? ps' <;> rw [hp, hp'] at hparts <;> cases hparts
  · exact .never
  · rename_i hqs
    cases hqs with
    | nil => exact .and .nil
    | cons hq hrest =>
      cases hrest with
      | nil => exact hq
      | cons hq' hrest => exact .and (.cons hq (.cons hq' hrest))

theorem disjuncts_alike {ps ps' : List Condition} (h : List.Forall₂ (Alike V) ps ps') :
    List.Forall₂ (Alike V) (disjuncts ps) (disjuncts ps') := by
  induction h with
  | nil => exact .nil
  | cons hp _ ih =>
    cases hp with
    | never => exact ih
    | compare column op hv => exact .cons (.compare column op hv) ih
    | isNull column negated => exact .cons (.isNull column negated) ih
    | and hinner => exact .cons (.and hinner) ih
    | or hinner => exact List.rel_append hinner ih

theorem any_alike {ps ps' : List Condition} (h : List.Forall₂ (Alike V) ps ps') :
    Alike V (any ps) (any ps') := by
  have hparts := disjuncts_alike h
  unfold any
  cases hp : disjuncts ps <;> cases hp' : disjuncts ps' <;> rw [hp, hp'] at hparts <;> cases hparts
  · exact .never
  · rename_i hq hrest
    cases hrest with
    | nil => exact hq
    | cons hq' hrest => exact .or (.cons hq (.cons hq' hrest))

end Condition

namespace SortColumn

variable {v v' : Value}

/-- What is behind a bound is asked in one way for all bounds that are not null. -/
theorem past_alike (c : SortColumn) (h : Value.NullTogether V v v') :
    (c.past v).Alike V (c.past v') := by
  cases h with
  | null =>
    unfold past
    cases c.nullPlace
    · exact .isNull c.name true
    · exact .never
  | value hv hv' h =>
    have hbeyond := Condition.Alike.compare c.name c.direction.behind h
    rw [past, past, hv, hv', if_neg Bool.false_ne_true, if_neg Bool.false_ne_true]
    dsimp only
    -- null is behind the bound or not by the column alone
    split
    · exact Condition.any_alike (.cons hbeyond (.cons (.isNull c.name false) .nil))
    · exact hbeyond

theorem tied_alike (c : SortColumn) (h : Value.NullTogether V v v') :
    (c.tied v).Alike V (c.tied v') := by
  cases h with
  | null => exact .isNull c.name false
  | value hv hv' h =>
    rw [tied, tied, hv, hv']
    exact .compare c.name .equal h

end SortColumn

/-! ## Cursors of one shape -/

namespace Cursor

variable {c c' : Cursor} {o : SortOrder}

/-- Both cursors set the same key columns, and null in the same ones. -/
structure SameShape (o : SortOrder) (c c' : Cursor) : Prop where
  sets : ∀ column ∈ o.key, c.sets column = c'.sets column
  nulls : ∀ column ∈ o.key,
    c.find? column.name = some .null ↔ c'.find? column.name = some .null

/-- The values of the cursors, not null, for one and the same key column. -/
def Beside (o : SortOrder) (c c' : Cursor) (v v' : Value) : Prop :=
  v ≠ .null ∧ v' ≠ .null ∧
    ∃ column ∈ o.key, c.find? column.name = some v ∧ c'.find? column.name = some v'

theorem Beside.null_notMem {vs vs' : List Value} (h : List.Forall₂ (c.Beside o c') vs vs') :
    .null ∉ vs ∧ .null ∉ vs' := by
  induction h with
  | nil => exact ⟨List.not_mem_nil, List.not_mem_nil⟩
  | cons hv _ ih =>
    obtain ⟨hne, hne', -⟩ := hv
    exact ⟨List.not_mem_cons_of_ne_of_not_mem hne.symm ih.1,
      List.not_mem_cons_of_ne_of_not_mem hne'.symm ih.2⟩

theorem disjuncts_alike {columns : List SortColumn}
    (h : ∀ column ∈ columns,
      Option.Rel (Value.NullTogether V) (c.find? column.name) (c'.find? column.name))
    {pinned pinned' : List Condition} (hpinned : List.Forall₂ (Condition.Alike V) pinned pinned') :
    List.Forall₂ (Condition.Alike V) (c.disjuncts pinned columns)
      (c'.disjuncts pinned' columns) := by
  induction columns generalizing pinned pinned' with
  | nil => exact .nil
  | cons column columns ih =>
    have hrest := fun d hd => h d (List.mem_cons_of_mem column hd)
    have hbound := h column List.mem_cons_self
    unfold disjuncts
    cases hf : c.find? column.name <;> cases hf' : c'.find? column.name <;>
      rw [hf, hf'] at hbound <;> cases hbound
    · exact .nil
    · rename_i hbound
      have hpast := List.rel_append hpinned (.cons (column.past_alike hbound) .nil)
      have htied := List.rel_append hpinned (.cons (column.tied_alike hbound) .nil)
      exact .cons (Condition.all_alike hpast) (ih hrest htied)

namespace SameShape

theorem find?_alike (h : SameShape o c c') {column : SortColumn} (hm : column ∈ o.key)
    (hV : ∀ v v', c.Beside o c' v v' → V v v') :
    Option.Rel (Value.NullTogether V) (c.find? column.name) (c'.find? column.name) := by
  have hset := h.sets column hm
  have hnull := h.nulls column hm
  rw [Cursor.sets, Cursor.sets] at hset
  cases hf : c.find? column.name <;> cases hf' : c'.find? column.name <;>
    rw [hf, hf'] at hset hnull
  case none.none => exact .none
  case none.some => cases hset
  case some.none => cases hset
  case some.some v v' =>
    rw [Option.some.injEq, Option.some.injEq] at hnull
    by_cases hv : v = .null
    · rw [hv, hnull.mp hv]
      exact .some .null
    · have hv' : v' ≠ .null := fun he => hv (hnull.mpr he)
      have hbeside : c.Beside o c' v v' := ⟨hv, hv', column, hm, hf, hf'⟩
      have hvalue {w : Value} (hw : w ≠ .null) : w.isNull = false :=
        Bool.eq_false_iff.mpr fun hnull => hw (Value.isNull_iff.mp hnull)
      exact .some (.value (hvalue hv) (hvalue hv') (hV v v' hbeside))

/-- Cursors that fit do so with as many columns. -/
theorem fit_eq (h : SameShape o c c') {k k' : Nat} (hc : c.fit o = .ok k)
    (hc' : c'.fit o = .ok k') : k = k' := by
  obtain ⟨-, hle, hset, hunset, -⟩ := fit_eq_ok_iff.mp hc
  have hset' : ∀ column ∈ o.key.take k, c'.sets column = true := fun column hm => by
    rw [← h.sets column (List.mem_of_mem_take hm)]
    exact hset column hm
  have hunset' : ∀ column ∈ o.key.drop k, c'.sets column = false := fun column hm => by
    rw [← h.sets column (List.mem_of_mem_drop hm)]
    exact hunset column hm
  have hk := (takeWhile_length_iff.mpr ⟨hle, hset', hunset'⟩).2
  have hk' := (fit_eq_ok_iff_leading.mp hc').2.2.1
  rw [hk, hk', leading]

/-- Cursors of one shape have conditions of one shape. -/
theorem lowerBound_alike (h : SameShape o c c') {k k' : Nat} (hc : c.fit o = .ok k)
    (hc' : c'.fit o = .ok k') {p p' : Option Condition} (hp : c.lowerBound o = .ok p)
    (hp' : c'.lowerBound o = .ok p') (hV : ∀ v v', c.Beside o c' v v' → V v v') :
    Option.Rel (Condition.Alike V) p p' := by
  obtain rfl := h.fit_eq hc hc'
  rcases Nat.eq_zero_or_pos k with rfl | hk
  · rw [lowerBound_eq_none_iff.mpr hc] at hp
    rw [lowerBound_eq_none_iff.mpr hc'] at hp'
    cases hp
    cases hp'
    exact .none
  · have hbounds : ∀ column ∈ o.key.take k,
        Option.Rel (Value.NullTogether V) (c.find? column.name) (c'.find? column.name) :=
      fun column hm => h.find?_alike (List.mem_of_mem_take hm) hV
    rw [lowerBound_of_fit hc hk] at hp
    rw [lowerBound_of_fit hc' hk] at hp'
    cases hp
    cases hp'
    exact .some (Condition.any_alike (disjuncts_alike hbounds .nil))

end SameShape

end Cursor

end Keyset
