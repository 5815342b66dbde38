import Keyset.Uuid

/-! # UUIDs read back

Taking the hyphens out of the written form leaves its 32 digits
(`hyphenated?_join`), and these denote the identifier. -/

namespace Keyset.Uuid
open Number

theorem hyphenated?_join {p q r s t : List Char} (hp : p.length = 8) (hq : q.length = 4)
    (hr : r.length = 4) (hs : s.length = 4) (ht : t.length = 12) :
    hyphenated? (p ++ '-' :: (q ++ '-' :: (r ++ '-' :: (s ++ '-' :: t)))) =
      ofDigits? (p ++ q ++ r ++ s ++ t) := by
  have hlength : (p ++ '-' :: (q ++ '-' :: (r ++ '-' :: (s ++ '-' :: t)))).length = 36 := by
    simp only [List.length_append, List.length_cons]
    omega
  have hhyphens : ([8, 13, 18, 23].all fun i =>
      (p ++ '-' :: (q ++ '-' :: (r ++ '-' :: (s ++ '-' :: t))))[i]? = some '-') = true := by
    simp [List.getElem?_append, hp, hq, hr, hs]
  rw [hyphenated?, if_pos ⟨hlength, hhyphens⟩]
  simp (disch := omega) [List.drop_append, List.drop_eq_nil_of_le, hp, hq, hr, hs]

theorem ofDigits?_hex (u : Uuid) : ofDigits? (hex 32 u.value.toNat) = some u := by
  rw [ofDigits?, ofHex?_hex, Nat.mod_eq_of_lt u.value.isLt, Option.map_some,
    BitVec.ofNat_toNat, BitVec.setWidth_eq]

theorem take_append_drop_add (ds : List Char) (m n : Nat) :
    (ds.drop m).take n ++ ds.drop (m + n) = ds.drop m := by
  rw [← List.drop_drop, List.take_append_drop]

theorem text_eq (u : Uuid) : ∃ p q r s t : List Char, hex 32 u.value.toNat = p ++ q ++ r ++ s ++ t ∧
    u.text = p ++ '-' :: (q ++ '-' :: (r ++ '-' :: (s ++ '-' :: t))) ∧
    p.length = 8 ∧ q.length = 4 ∧ r.length = 4 ∧ s.length = 4 ∧ t.length = 12 := by
  obtain ⟨ds, hds⟩ : ∃ ds, ds = hex 32 u.value.toNat := ⟨_, rfl⟩
  have hlength : ds.length = 32 := hds ▸ length_hex 32 u.value.toNat
  rw [← hds]
  refine ⟨ds.take 8, (ds.drop 8).take 4, (ds.drop 12).take 4, (ds.drop 16).take 4, ds.drop 20,
    ?_, by simp [text, hds], ?_⟩
  · rw [List.append_assoc, List.append_assoc, List.append_assoc, take_append_drop_add ds 16 4,
      take_append_drop_add ds 12 4, take_append_drop_add ds 8 4, List.take_append_drop]
  · simp only [List.length_take, List.length_drop, hlength]
    decide

theorem digitChar_ne : ∀ n < 16, n.digitChar.toLower ≠ 'u' ∧ n.digitChar ≠ '\x7b' := by decide

theorem ne_of_mem_hex {width n : Nat} {c : Char} (h : c ∈ hex width n) :
    c.toLower ≠ 'u' ∧ c ≠ '\x7b' := by
  induction width generalizing n with
  | zero => cases h
  | succ width ih =>
    rw [hex, List.mem_append, List.mem_singleton] at h
    rcases h with h | rfl
    · exact ih h
    · exact digitChar_ne _ (Nat.mod_lt _ (by decide))

theorem read?_text (u : Uuid) : read? u.text = some u := by
  obtain ⟨p, q, r, s, t, hhex, htext, hp, hq, hr, hs, ht⟩ := u.text_eq
  have hread : hyphenated? u.text = some u := by
    rw [htext, hyphenated?_join hp hq hr hs ht, ← hhex, ofDigits?_hex]
  obtain ⟨c, cs, hc⟩ : ∃ c cs, p = c :: cs := List.exists_cons_of_length_pos (by omega)
  have hne : c.toLower ≠ 'u' ∧ c ≠ '\x7b' := ne_of_mem_hex (by rw [hhex, hc]; simp)
  have hlength : u.text.length ≠ 32 := by
    rw [htext]
    simp only [List.length_append, List.length_cons]
    omega
  have hfirst : u.text = c :: u.text.tail := by rw [htext, hc]; rfl
  have hurn : (u.text.take 9).map Char.toLower ≠ "urn:uuid:".toList := by
    rw [hfirst]
    intro h
    exact hne.1 (List.cons.inj h).1
  unfold read?
  rw [if_neg hlength, if_neg hurn]
  split
  · rename_i rest heq
    rw [hfirst] at heq
    exact absurd (List.cons.inj heq).1 hne.2
  · exact hread

end Keyset.Uuid
