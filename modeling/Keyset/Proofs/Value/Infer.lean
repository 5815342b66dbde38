import Keyset.Proofs.Number.Signed
import Keyset.Proofs.Text.Blank
import Keyset.Proofs.Value.Text
import Keyset.Value.Infer

/-! # Inferred values

What is inferred from a text depends on the trimmed text only. An empty one is
null, a form that is recognised is its value, and all else stays text
(`infer_cases`). The forms overlap: a whole number is also a floating point
number. Integers come first, so digits are an integer exactly, as long as one of
64 bits is what they denote (`infer_eq_int_iff`, `infer_eq_uint_iff`). A
number that would be infinite is no form of a number, so no inferred number is
(`isFinite_infer`). -/

namespace Keyset.Value

open Text Number

/-- The values of the forms of text, each with the forms before it that the text does not have. -/
inductive Recognised (cs : List Char) : Value → Prop
  | int {i : Int64} (h : int64? cs = some i) : Recognised cs (.int i)
  | uint {u : UInt64} (hint : int64? cs = none) (h : uint64? cs = some u) : Recognised cs (.uint u)
  | float {f : Binary64} (h : Binary64.read? cs = some f) : Recognised cs (.float f)
  | boolean {b : Bool} (h : boolean? cs = some b) : Recognised cs (.boolean b)
  | timestamp {t : Timestamp} (h : Calendar.strictTimestamp? cs = some t) :
      Recognised cs (.timestamp t)
  | date {d : Date} (h : Calendar.date? cs = some d) : Recognised cs (.date d)

/-- The first form that a text has counts. -/
theorem orElse_cases {α : Type} {f : α → Value} {a? : Option α} {rest : Option Value} {v : Value}
    (h : (a?.map f <|> rest) = some v) :
    (∃ a, a? = some a ∧ v = f a) ∨ (a? = none ∧ rest = some v) := by
  cases a? with
  | none => exact .inr ⟨rfl, h⟩
  | some a => exact .inl ⟨a, rfl, (Option.some.inj h).symm⟩

theorem recognised_of_eq_some {cs : List Char} {v : Value} (h : recognised? cs = some v) :
    Recognised cs v := by
  unfold recognised? at h
  obtain ⟨i, hi, rfl⟩ | ⟨hint, h⟩ := orElse_cases h
  · exact .int hi
  obtain ⟨u, hu, rfl⟩ | ⟨-, h⟩ := orElse_cases h
  · exact .uint hint hu
  obtain ⟨f, hf, rfl⟩ | ⟨-, h⟩ := orElse_cases h
  · exact .float hf
  obtain ⟨b, hb, rfl⟩ | ⟨-, h⟩ := orElse_cases h
  · exact .boolean hb
  obtain ⟨t, ht, rfl⟩ | ⟨-, h⟩ := orElse_cases h
  · exact .timestamp ht
  obtain ⟨d, hd, rfl⟩ := Option.map_eq_some_iff.mp h
  exact .date hd

variable {raw : String}

theorem infer_of_ne_nil (h : trim raw.toList ≠ []) :
    infer raw = (recognised? (trim raw.toList)).getD (.string (strip raw)) := by
  have hempty : (trim raw.toList).isEmpty = false := List.isEmpty_eq_false_iff.mpr h
  simp only [infer, hempty, Bool.false_eq_true, if_false, strip]

/-- What is inferred from a text. -/
theorem infer_cases (raw : String) :
    (strip raw = "" ∧ infer raw = .null) ∨ Recognised (trim raw.toList) (infer raw) ∨
      (strip raw ≠ "" ∧ infer raw = .string (strip raw)) := by
  by_cases hempty : trim raw.toList = []
  · refine .inl ⟨by rw [strip, hempty], ?_⟩
    simp only [infer, hempty, List.isEmpty_nil, if_true]
  · have hne : strip raw ≠ "" := by
      intro h
      rw [strip, ← String.toList_inj, String.toList_ofList] at h
      exact hempty h
    rw [infer_of_ne_nil hempty]
    cases hvalue : recognised? (trim raw.toList) with
    | none => exact .inr (.inr ⟨hne, rfl⟩)
    | some v => exact .inr (.inl (recognised_of_eq_some hvalue))

/-- What is neither null nor the text itself is the value of a form. -/
theorem recognised_of_infer {v : Value} (h : infer raw = v) (hnull : v ≠ .null)
    (htext : ∀ t, v ≠ .string t) : Recognised (trim raw.toList) v := by
  rcases infer_cases raw with ⟨-, hinfer⟩ | hform | ⟨-, hinfer⟩
  · exact absurd (h.symm.trans hinfer) hnull
  · exact h ▸ hform
  · exact absurd (h.symm.trans hinfer) (htext _)

/-- Only blank text is null. -/
theorem isNull_infer (hraw : strip raw ≠ "") : (infer raw).isNull = false := by
  rcases infer_cases raw with ⟨hempty, -⟩ | hform | ⟨-, htext⟩
  · exact absurd hempty hraw
  · generalize infer raw = v at hform
    cases hform <;> rfl
  · rw [htext]
    rfl

/-- No number is inferred that is not finite. -/
theorem isFinite_infer (raw : String) : (infer raw).isFinite = true := by
  rcases infer_cases raw with ⟨-, hnull⟩ | hform | ⟨-, htext⟩
  · rw [hnull]
    rfl
  · generalize infer raw = v at hform
    cases hform with
    | float h => exact (Option.filter_eq_some_iff.mp h).2
    | int | uint | boolean | timestamp | date => rfl
  · rw [htext]
    rfl

theorem infer_strip (raw : String) : infer (strip raw) = infer raw := by
  simp only [infer, strip, String.toList_ofList, trim_trim]

theorem infer_eq_string {t : String} (h : infer raw = .string t) : t = strip raw ∧ t ≠ "" := by
  rcases infer_cases raw with ⟨-, hnull⟩ | hform | ⟨hne, htext⟩
  · rw [h] at hnull
    cases hnull
  · rw [h] at hform
    cases hform
  · rw [h] at htext
    cases htext
    exact ⟨rfl, hne⟩

theorem infer_eq_int_iff {i : Int64} :
    infer raw = .int i ↔ Denotes (trim raw.toList) i.toInt := by
  rw [← int64?_eq_some_iff]
  constructor
  · intro h
    cases recognised_of_infer h nofun nofun with
    | int hread => exact hread
  · intro h
    have hne : trim raw.toList ≠ [] := (int64?_eq_some_iff.mp h).ne_nil
    rw [infer_of_ne_nil hne, recognised?, h]
    rfl

theorem infer_eq_uint_iff {u : UInt64} :
    infer raw = .uint u ↔ Denotes (trim raw.toList) u.toNat ∧ 2 ^ 63 ≤ u.toNat := by
  constructor
  · intro h
    cases recognised_of_infer h nofun nofun with
    | uint hint hread =>
      have hdenotes := denotes_of_uint64? hread
      refine ⟨hdenotes, Nat.le_of_not_lt fun hlt => ?_⟩
      -- a smaller one would have been read as a signed integer
      have hsigned : (Int64.ofInt u.toNat).toInt = u.toNat :=
        Int64.toInt_ofInt_of_le (by omega) (by omega)
      rw [← hsigned, ← int64?_eq_some_iff, hint] at hdenotes
      cases hdenotes
  · rintro ⟨h, hlarge⟩
    have hint : int64? (trim raw.toList) = none := by
      cases hi : int64? (trim raw.toList) with
      | none => rfl
      | some i =>
        have heq := (int64?_eq_some_iff.mp hi).unique h
        have hlt : i.toInt < 2 ^ 63 := i.toInt_lt
        omega
    have hread := uint64?_of_denotes h (by omega)
    rw [infer_of_ne_nil h.ne_nil, recognised?, hint, hread]
    rfl

end Keyset.Value
