import Keyset.Text.Utf8

/-! # UTF-8 reads back

Reading what `encode` gives finds the characters again and no stray byte. A
character below 128 is one byte, its code (`encode_ascii`); others have no byte
below 128 (`utf8EncodeChar_cases`). -/

namespace Keyset.Text.Utf8

/-- A character is found in front of whatever follows. -/
theorem first?_append (c : Char) (bs : List UInt8) :
    first? (String.utf8EncodeChar c ++ bs) = some c := by
  have hlen : (String.utf8EncodeChar c).length ≤ 4 := by
    rw [String.length_utf8EncodeChar]
    exact c.utf8Size_le_four
  rw [first?, List.take_append, List.take_of_length_le hlen, List.toByteArray_append]
  exact ByteArray.utf8DecodeChar?_utf8EncodeChar_append

theorem decode_encode (cs : List Char) : decode (encode cs) = cs.map some := by
  induction cs with
  | nil => rw [encode, List.flatMap_nil, decode]; rfl
  | cons c cs ih =>
    have hfirst := first?_append c (encode cs)
    have hdrop : (String.utf8EncodeChar c ++ encode cs).drop c.utf8Size = encode cs := by
      rw [← String.length_utf8EncodeChar, List.drop_left]
    rw [encode, List.flatMap_cons, ← encode, List.map_cons, ← ih]
    have hlen := String.length_utf8EncodeChar c
    have hpos := c.utf8Size_pos
    cases hb : String.utf8EncodeChar c with
    | nil => rw [hb, List.length_nil] at hlen; omega
    | cons b bs =>
      rw [hb, List.cons_append] at hfirst hdrop
      rw [List.cons_append, decode, hfirst]
      obtain ⟨n, hn⟩ : ∃ n, c.utf8Size = n + 1 := ⟨c.utf8Size - 1, by omega⟩
      rw [hn, List.drop_succ_cons] at hdrop
      simp only [hn, Nat.add_sub_cancel, hdrop]

theorem text?_encode (cs : List Char) : text? (encode cs) = some (String.ofList cs) := by
  have hsome : (cs.map some).mapM id = some cs := by
    induction cs with
    | nil => rfl
    | cons c cs ih => rw [List.map_cons, List.mapM_cons, ih]; rfl
  rw [text?, decode_encode, hsome]
  rfl

/-- The bytes are those of which the standard library counts the size of a text. -/
theorem length_encode (s : String) : (encode s.toList).length = s.utf8ByteSize := by
  have h : s.toByteArray = s.toList.utf8Encode := by
    rw [← String.toByteArray_ofList, String.ofList_toList]
  rw [← String.size_toByteArray, h, List.utf8Encode, List.size_toByteArray]
  rfl

/-! ## Characters below 128 -/

/-- The character with a code below 128. -/
def ascii (b : UInt8) : Char := Char.ofNat b.toNat

theorem toNat_ascii {b : UInt8} (h : b.toNat < 128) : (ascii b).toNat = b.toNat := by
  have hvalid : b.toNat.isValidChar := Or.inl (by omega)
  rw [ascii, Char.ofNat, dif_pos hvalid]
  rfl

theorem encode_ascii {bs : List UInt8} (h : ∀ b ∈ bs, b.toNat < 128) :
    encode (bs.map ascii) = bs := by
  induction bs with
  | nil => rfl
  | cons b bs ih =>
    have hb := h b (by simp)
    have hval : (ascii b).val.toNat = b.toNat := toNat_ascii hb
    have hsize : (ascii b).utf8Size = 1 := by
      rw [Char.utf8Size_eq_one_iff, UInt32.le_iff_toNat_le, hval]
      show b.toNat ≤ 127
      omega
    have hbyte : (ascii b).val.toUInt8 = b := by
      apply UInt8.toNat_inj.mp
      rw [UInt32.toNat_toUInt8, hval]
      omega
    rw [List.map_cons, encode, List.flatMap_cons, ← encode,
      ih fun c hc => h c (List.mem_cons_of_mem b hc), String.utf8EncodeChar_eq_singleton hsize,
      hbyte]
    rfl

/-- A character is one byte, or has no byte below 128. -/
theorem utf8EncodeChar_cases (c : Char) : (∃ b, String.utf8EncodeChar c = [b]) ∨
    ∀ b ∈ String.utf8EncodeChar c, 128 ≤ b.toNat := by
  have hbyte {n : Nat} (h : 128 ≤ n) (hlt : n < 256) : 128 ≤ (UInt8.ofNat n).toNat := by
    rwa [UInt8.toNat_ofNat_of_lt' hlt]
  unfold String.utf8EncodeChar
  dsimp only
  split
  · exact Or.inl ⟨_, rfl⟩
  · right
    split
    · simp only [List.forall_mem_cons]
      exact ⟨hbyte (by omega) (by omega), hbyte (by omega) (by omega), by simp⟩
    · split
      · simp only [List.forall_mem_cons]
        exact ⟨hbyte (by omega) (by omega), hbyte (by omega) (by omega),
          hbyte (by omega) (by omega), by simp⟩
      · simp only [List.forall_mem_cons]
        exact ⟨hbyte (by omega) (by omega), hbyte (by omega) (by omega),
          hbyte (by omega) (by omega), hbyte (by omega) (by omega), by simp⟩

end Keyset.Text.Utf8
