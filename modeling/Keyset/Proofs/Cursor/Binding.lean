import Keyset.Proofs.Cursor.Token
import Keyset.Proofs.Order.Fingerprint

/-! # A token is good for one ordering

A token carries the fingerprint of the ordering it was made for, and is refused
for an ordering of another fingerprint. So it is accepted exactly for the
orderings of the same fingerprint text that its cursor fits (`token_bound`).
Names with commas let two orderings share a text (`Post.fused_token_crosses`). -/

namespace Keyset

namespace Cursor

theorem ofToken_token_eq_ok_iff {c d : Cursor} {a b : SortOrder} :
    ofToken (c.token a) b = .ok d ↔ d = c ∧ a.fingerprintHex = b.fingerprintHex ∧
      (∃ k, c.fit b = .ok k) ∧ c.isFinite = true ∧
      (c.token a).utf8ByteSize ≤ CursorError.sizeLimit := by
  rw [ofToken_token_eq]
  by_cases hsize : CursorError.sizeLimit < (c.token a).utf8ByteSize
  · simp [hsize, Nat.not_le.mpr hsize]
  · rw [if_neg hsize]
    cases hfinite : c.isFinite with
    | false => simp
    | true =>
      rw [if_pos rfl]
      by_cases hprint : a.fingerprintHex = b.fingerprintHex
      · rw [if_pos hprint]
        cases hfit : c.fit b with
        | error e => simp [Except.map]
        | ok k => simp [Except.map, hprint, Nat.not_lt.mp hsize, eq_comm]
      · simp [hprint]

/-- **A token is bound to its ordering.** Let two orderings whose fingerprints agree have the same
fingerprint text. A token made for the one is accepted for the other exactly if they do have the
same text, the cursor fits, its numbers are finite and the token is no longer than a token may be.
If no key column has a comma in its name, the token is thus refused unless the two have as many
key columns, and at each place the same name up to letter case, direction and place of null. -/
theorem token_bound (a b : SortOrder) (c : Cursor)
    (distinguished : a.fingerprint = b.fingerprint → a.fingerprintText = b.fingerprintText) :
    ((∃ d, ofToken (c.token a) b = .ok d) ↔
      a.fingerprintText = b.fingerprintText ∧ (∃ k, c.fit b = .ok k) ∧ c.isFinite = true ∧
        (c.token a).utf8ByteSize ≤ CursorError.sizeLimit) ∧
    (a.CommaFree → b.CommaFree → a.signature ≠ b.signature →
      ∃ e, ofToken (c.token a) b = .error e) := by
  have hsame : a.fingerprintHex = b.fingerprintHex ↔ a.fingerprintText = b.fingerprintText :=
    ⟨fun h => distinguished (SortOrder.fingerprintHex_inj h), SortOrder.fingerprintHex_congr⟩
  have haccepts : (∃ d, ofToken (c.token a) b = .ok d) ↔
      a.fingerprintText = b.fingerprintText ∧ (∃ k, c.fit b = .ok k) ∧ c.isFinite = true ∧
        (c.token a).utf8ByteSize ≤ CursorError.sizeLimit := by
    rw [← hsame]
    constructor
    · rintro ⟨d, hd⟩
      exact (ofToken_token_eq_ok_iff.mp hd).2
    · intro h
      exact ⟨c, ofToken_token_eq_ok_iff.mpr ⟨rfl, h⟩⟩
  refine ⟨haccepts, fun ha hb hne => ?_⟩
  cases hread : ofToken (c.token a) b with
  | error e => exact ⟨e, rfl⟩
  | ok d =>
    have htext := (haccepts.mp ⟨d, hread⟩).1
    exact absurd ((SortOrder.fingerprintText_eq_iff ha hb).mp htext) hne

end Cursor

namespace Post

/-- Posts by day and hour, the days in the given direction. -/
def hourly (d : Direction) : SortOrder :=
  ⟨[⟨"day", d, false, false, none⟩, ⟨"hour", .ascending, false, false, none⟩,
    ⟨"id", .ascending, false, true, none⟩], by cases d <;> decide⟩

/-- Posts by day and by a column whose name reads like the other two of `hourly`. -/
def fused : SortOrder :=
  ⟨[⟨"day", .ascending, false, false, none⟩, ⟨"hour:a:l,id", .ascending, false, true, none⟩],
    by decide⟩

/-- Behind the first day. -/
def dayOne : Cursor := .ofPairs [("day", .int 1)]

/-- The first day of ascending days is no position in descending ones. -/
theorem hourly_token_refused :
    ((hourly .ascending).fingerprint = (hourly .descending).fingerprint →
      (hourly .ascending).fingerprintText = (hourly .descending).fingerprintText) ∧
    (hourly .ascending).signature ≠ (hourly .descending).signature ∧
    ∃ e, Cursor.ofToken (dayOne.token (hourly .ascending)) (hourly .descending) = .error e := by
  have hprints : (hourly .ascending).fingerprint ≠ (hourly .descending).fingerprint := by
    decide +kernel
  have hne : (hourly .ascending).signature ≠ (hourly .descending).signature := by decide
  exact ⟨fun h => absurd h hprints, hne,
    (Cursor.token_bound _ _ dayOne fun h => absurd h hprints).2 (by decide) (by decide) hne⟩

/-- Days alone are a position in two orderings with different keys, and its token for the one is
accepted for the other. -/
theorem fused_token_crosses :
    dayOne.fit fused = .ok 1 ∧ fused.key.length ≠ (hourly .ascending).key.length ∧
    (fused.fingerprint = (hourly .ascending).fingerprint →
      fused.fingerprintText = (hourly .ascending).fingerprintText) ∧
    Cursor.ofToken (dayOne.token fused) (hourly .ascending) = .ok dayOne := by
  have htext : fused.fingerprintText = (hourly .ascending).fingerprintText := by decide
  refine ⟨by decide, by decide, fun _ => htext, ?_⟩
  refine Cursor.ofToken_token_eq_ok_iff.mpr
    ⟨rfl, SortOrder.fingerprintHex_congr htext, ⟨1, by decide⟩, by decide, ?_⟩
  decide +kernel

end Post

end Keyset
