import Keyset.Json.Read
import Keyset.Proofs.Json.Scan

/-! # Documents mean what they were made of

Whole numbers come back from their documents if they have the wanted width, an
array as the list of its items, and the members of a record as a list of names
and values (`pairs?_record`). Where members may be missing, and others may be
there, those of the wanted names are found (`optionalRecord?_record`). A
document of well spelled numbers comes back from its text (`ofText?_text`). -/

namespace Keyset.Json.Document
open Number (isDigits_toDigits head?_toDigits)

/-! ## Whole numbers -/

theorem ofInt_natCast (n : Nat) : ofInt (n : Int) = ofNat n := by
  rw [ofInt, if_neg (by omega), Int.natAbs_natCast, ofNat]

theorem integer?_ofNat (n : Nat) : (ofNat n).integer? = some (n : Int) := by
  obtain ⟨hne, hall⟩ := isDigits_toDigits n
  have hnatural := Number.natural?_toDigits n
  rw [ofNat]
  cases hd : Nat.toDigits 10 n with
  | nil => exact absurd hd hne
  | cons c cs =>
    have hc : c.isDigit = true := hall c (by rw [hd]; simp)
    have hplus : c ≠ '+' := by rintro rfl; cases hc
    have hminus : c ≠ '-' := by rintro rfl; cases hc
    rw [hd] at hnatural
    simp [integer?, Number.integer?, hplus, hminus, hnatural]

theorem integer?_ofInt (n : Int) : (ofInt n).integer? = some n := by
  obtain ⟨m, rfl | rfl⟩ := n.eq_nat_or_neg
  · rw [ofInt_natCast, integer?_ofNat]
  · by_cases hm : m = 0
    · rw [hm]
      exact integer?_ofNat 0
    · -- the digits are not those of the refused `-0`
      have hzero : Nat.toDigits 10 m ≠ ['0'] := by
        intro h
        exact head?_toDigits hm (by rw [h]; rfl)
      rw [ofInt, if_pos (by omega), Int.natAbs_neg, Int.natAbs_natCast]
      unfold integer?
      split
      · rename_i h
        simp only [number.injEq, List.cons.injEq, true_and] at h
        exact absurd h hzero
      · rename_i h
        cases h
        simp [Number.integer?, Number.natural?_toDigits]
      · rename_i h
        exact absurd rfl (h _)

theorem int64?_ofInt (n : Int64) : (ofInt n.toInt).int64? = some n := by
  have hmin : Int64.minValue.toInt ≤ n.toInt := n.minValue_le_toInt
  have hmax : n.toInt ≤ Int64.maxValue.toInt := n.toInt_le
  have hround : Int64.ofInt n.toInt = n := Int64.ofInt_toInt n
  rw [int64?, integer?_ofInt]
  show (if Int64.minValue.toInt ≤ n.toInt ∧ n.toInt ≤ Int64.maxValue.toInt then
    some (Int64.ofInt n.toInt) else none) = some n
  rw [if_pos ⟨hmin, hmax⟩, hround]

theorem below?_ofNat {n bound : Nat} (h : n < bound) : (ofNat n).below? bound = some n := by
  rw [below?, integer?_ofNat]
  simp [h]

theorem uint64?_ofNat (n : UInt64) : (ofNat n.toNat).uint64? = some n := by
  rw [uint64?, below?_ofNat n.toNat_lt, Option.map_some, UInt64.ofNat_toNat]

theorem spelled_ofNat (n : Nat) : (ofNat n).Spelled := by
  rw [ofNat, Spelled]
  exact isNumeral_toDigits n

theorem spelled_ofInt (n : Int) : (ofInt n).Spelled := by
  rw [ofInt, Spelled]
  split
  · exact isNumeral_neg_toDigits _
  · exact isNumeral_toDigits _

/-! ## Strings, arrays and what may be missing -/

theorem spelled_ofString (s : String) : (ofString s).Spelled := by
  rw [ofString, Spelled]
  trivial

theorem list?_array {α : Type} {f : Document → Option α} {g : α → Document} {as : List α}
    (h : ∀ a ∈ as, f (g a) = some a) : (array (as.map g)).list? f = some as := by
  rw [list?]
  induction as with
  | nil => rfl
  | cons a as ih =>
    have hfirst := h a List.mem_cons_self
    have hrest := ih fun b hb => h b (List.mem_cons_of_mem a hb)
    rw [List.map_cons, List.mapM_cons, hfirst, hrest]
    rfl

theorem spelled_array {ds : List Document} (h : ∀ d ∈ ds, d.Spelled) : (array ds).Spelled := by
  rw [Spelled]
  induction ds with
  | nil => rw [SpelledItems]; trivial
  | cons d ds ih =>
    rw [SpelledItems]
    exact ⟨h d List.mem_cons_self, ih fun e he => h e (List.mem_cons_of_mem d he)⟩

theorem spelled_ofOption {α : Type} {g : α → Document} (h : ∀ a, (g a).Spelled)
    (a : Option α) : (ofOption g a).Spelled := by
  cases a with
  | none => rw [ofOption, Spelled]; trivial
  | some a => exact h a

/-! ## Records -/

theorem spelled_record {members : List (String × Document)}
    (h : ∀ m ∈ members, m.2.Spelled) : (record members).Spelled := by
  rw [record, Spelled]
  induction members with
  | nil => rw [List.map_nil, SpelledMembers]; trivial
  | cons m ms ih =>
    rw [List.map_cons, SpelledMembers]
    exact ⟨h m (by simp), ih fun n hn => h n (List.mem_cons_of_mem m hn)⟩

theorem pairs?_record {α : Type} {f : Document → Option α} {g : α → Document}
    {es : List (String × α)} (h : ∀ e ∈ es, f (g e.2) = some e.2) :
    (record (es.map fun (name, a) => (name, g a))).pairs? f = some es := by
  rw [record, pairs?]
  induction es with
  | nil => rfl
  | cons e es ih =>
    have hfirst := h e (by simp)
    have hrest := ih fun x hx => h x (List.mem_cons_of_mem e hx)
    simp only [List.map_cons, List.mapM_cons]
    rw [hrest, hfirst]
    rfl

/-- One value that is not read spoils the record. -/
theorem pairs?_record_eq_none {α : Type} {f : Document → Option α} {g : α → Document}
    {es : List (String × α)} (h : ∃ e ∈ es, f (g e.2) = none) :
    (record (es.map fun (name, a) => (name, g a))).pairs? f = none := by
  rw [record, pairs?]
  induction es with
  | nil =>
    obtain ⟨e, he, -⟩ := h
    cases he
  | cons e es ih =>
    simp only [List.map_cons, List.mapM_cons]
    cases hfirst : f (g e.2) with
    | none => rfl
    | some a =>
      have hrest : ∃ x ∈ es, f (g x.2) = none := by
        obtain ⟨x, hx, hnone⟩ := h
        rcases List.mem_cons.mp hx with rfl | hx
        · rw [hfirst] at hnone
          cases hnone
        · exact ⟨x, hx, hnone⟩
      rw [ih hrest]
      rfl

/-! ## Records with defaults -/

/-- The contents of the members of a name. -/
def contents (members : List (String × Document)) (name : String) : List Document :=
  (members.filter (·.1 = name)).map (·.2)

theorem mapM_names (members : List (String × Document)) :
    (members.map fun (name, d) => (some name, d)).mapM
      (fun ((name, d) : Option String × Document) => name.map fun name => (name, d)) =
        some members := by
  induction members with
  | nil => rfl
  | cons m ms ih =>
    rw [List.map_cons, List.mapM_cons, ih]
    rfl

/-- The fields of an object that has none of them twice. -/
theorem optionalRecord?_record {names : List String} {members : List (String × Document)}
    (h : ∀ name ∈ names, (contents members name).length ≤ 1) :
    (record members).optionalRecord? names =
      some (names.map fun name => (contents members name).head?) := by
  have honce : (names.all fun name => (members.filter (·.1 = name)).length ≤ 1) = true := by
    refine List.all_eq_true.mpr fun name hname => decide_eq_true ?_
    have hlength := h name hname
    rwa [contents, List.length_map] at hlength
  simp only [record, optionalRecord?, members?, mapM_names, Option.bind_eq_bind, Option.bind_some]
  rw [if_pos honce]
  simp only [contents, List.head?_map, List.head?_filter]

/-! ## Texts -/

theorem ofText?_text {d : Document} (h : d.Spelled) : ofText? d.text = some d := by
  rw [ofText?, text, String.toList_ofList, document?_render h]

end Keyset.Json.Document
