import Keyset.Text.Base64Url

/-! # Base64 reads back

Symbols are cut into fours as bytes are into threes. Four symbols of three bytes
give these bytes again, in the middle of a text as at its end, where there may
be fewer (`decodeFrom_encode`). The check that comes before all else never
speaks up, since no encoded text is one symbol too long (`strayLast?_encode`). -/

namespace Keyset.Text.Base64Url

/-! ## Bytes from six-bit values -/

theorem ofNat_first {a : UInt8} {x : Nat} (h : x < 16) :
    UInt8.ofNat (a.toNat / 4 * 4 + (a.toNat % 4 * 16 + x) / 16) = a := by
  apply UInt8.toNat_inj.mp
  have ha := a.toNat_lt
  rw [UInt8.toNat_ofNat']
  omega

theorem ofNat_second {b : UInt8} {x y : Nat} (h : y < 4) :
    UInt8.ofNat ((x * 16 + b.toNat / 16) % 16 * 16 + (b.toNat % 16 * 4 + y) / 4) = b := by
  apply UInt8.toNat_inj.mp
  have hb := b.toNat_lt
  rw [UInt8.toNat_ofNat']
  omega

theorem ofNat_third {c : UInt8} {x : Nat} :
    UInt8.ofNat ((x * 4 + c.toNat / 64) % 4 * 64 + c.toNat % 64) = c := by
  apply UInt8.toNat_inj.mp
  have hc := c.toNat_lt
  rw [UInt8.toNat_ofNat']
  omega

/-! ## The last symbols -/

theorem ne_pad_of_value? {b : UInt8} {v : Nat} (h : value? b = some v) : b ≠ pad := by
  rintro rfl
  cases h

theorem symbolAt_symbol {v : Nat} (h : v < 64) (offset : Nat) :
    symbolAt (symbol v) offset = .ok v := by
  rw [symbolAt, value?_symbol v h]

theorem lastValues_symbols {vs : List Nat} (h : ∀ v ∈ vs, v < 64) (offset place : Nat) :
    lastValues offset place (vs.map symbol) = .ok (vs, false) := by
  induction vs generalizing place with
  | nil => rfl
  | cons v vs ih =>
    have hv := value?_symbol v (h v (by simp))
    rw [List.map_cons, lastValues, if_neg (ne_pad_of_value? hv), hv]
    simp only [ih fun w hw => h w (List.mem_cons_of_mem v hw)]
    rfl

theorem decodeLast_two {a b : Nat} (ha : a < 64) (hb : b < 64) (hr : b % 16 = 0) (offset : Nat) :
    decodeLast offset [symbol a, symbol b] = .ok [UInt8.ofNat (a * 4 + b / 16)] := by
  have hlt : ∀ v ∈ [a, b], v < 64 := by simp [ha, hb]
  have hv := lastValues_symbols hlt offset 0
  simp only [List.map_cons, List.map_nil] at hv
  simp [decodeLast, hv, hr, bind, Except.bind, pure, Except.pure]

theorem decodeLast_three {a b c : Nat} (ha : a < 64) (hb : b < 64) (hc : c < 64) (hr : c % 4 = 0)
    (offset : Nat) : decodeLast offset [symbol a, symbol b, symbol c] =
      .ok [UInt8.ofNat (a * 4 + b / 16), UInt8.ofNat (b % 16 * 16 + c / 4)] := by
  have hlt : ∀ v ∈ [a, b, c], v < 64 := by simp [ha, hb, hc]
  have hv := lastValues_symbols hlt offset 0
  simp only [List.map_cons, List.map_nil] at hv
  simp [decodeLast, hv, hr, bind, Except.bind, pure, Except.pure]

theorem decodeLast_four {a b c d : Nat} (ha : a < 64) (hb : b < 64) (hc : c < 64) (hd : d < 64)
    (offset : Nat) : decodeLast offset [symbol a, symbol b, symbol c, symbol d] =
      .ok [UInt8.ofNat (a * 4 + b / 16), UInt8.ofNat (b % 16 * 16 + c / 4),
        UInt8.ofNat (c % 4 * 64 + d)] := by
  have hlt : ∀ v ∈ [a, b, c, d], v < 64 := by simp [ha, hb, hc, hd]
  have hv := lastValues_symbols hlt offset 0
  simp only [List.map_cons, List.map_nil] at hv
  simp [decodeLast, hv, bind, Except.bind, pure, Except.pure]

/-! ## Whole texts -/

theorem decodeFrom_encode (bs : List UInt8) (offset : Nat) :
    decodeFrom offset (encode bs) = .ok bs := by
  fun_induction encode bs generalizing offset with
  | case1 => rfl
  | case2 a =>
    have ha := a.toNat_lt
    rw [decodeFrom, decodeLast_two (by omega) (by omega) (by omega)]
    · rw [← Nat.add_zero (a.toNat % 4 * 16), ofNat_first (by decide)]
    · simp
  | case3 a b =>
    have ha := a.toNat_lt
    have hb := b.toNat_lt
    rw [decodeFrom, decodeLast_three (by omega) (by omega) (by omega) (by omega),
      ofNat_first (by omega)]
    · rw [← Nat.add_zero (b.toNat % 16 * 4), ofNat_second (by decide)]
    · simp
  | case4 a b c rest ih =>
    have ha := a.toNat_lt
    have hb := b.toNat_lt
    have hc := c.toNat_lt
    have hbytes : [UInt8.ofNat (a.toNat / 4 * 4 + (a.toNat % 4 * 16 + b.toNat / 16) / 16),
        UInt8.ofNat ((a.toNat % 4 * 16 + b.toNat / 16) % 16 * 16 +
          (b.toNat % 16 * 4 + c.toNat / 64) / 4),
        UInt8.ofNat ((b.toNat % 16 * 4 + c.toNat / 64) % 4 * 64 + c.toNat % 64)] = [a, b, c] := by
      rw [ofNat_first (by omega), ofNat_second (by omega), ofNat_third]
    rw [decodeFrom]
    split
    · rename_i hnil
      -- only nothing is encoded by nothing
      have hrest : rest = [] := by
        match rest with
        | [] => rfl
        | [_] | [_, _] | _ :: _ :: _ :: _ => simp [encode] at hnil
      rw [decodeLast_four (by omega) (by omega) (by omega) (by omega), hbytes, hrest]
    · simp only [symbolAt_symbol (v := a.toNat / 4) (by omega),
        symbolAt_symbol (v := a.toNat % 4 * 16 + b.toNat / 16) (by omega),
        symbolAt_symbol (v := b.toNat % 16 * 4 + c.toNat / 64) (by omega),
        symbolAt_symbol (v := c.toNat % 64) (by omega), ih, bind, Except.bind, pure, Except.pure]
      rw [ofNat_first (by omega), ofNat_second (by omega), ofNat_third]

theorem length_encode_mod (bs : List UInt8) : (encode bs).length % 4 ≠ 1 := by
  fun_induction encode bs with
  | case1 | case2 | case3 => simp
  | case4 a b c rest ih =>
    simp only [List.length_cons]
    omega

theorem strayLast?_encode (bs : List UInt8) : strayLast? (encode bs) = none := by
  rw [strayLast?, if_neg (length_encode_mod bs)]

theorem decode_encode (bs : List UInt8) : decode (encode bs) = .ok bs := by
  simp only [decode, strayLast?_encode, decodeFrom_encode]

/-! ## Symbols are letters, digits and two marks -/

theorem isAscii_symbol : ∀ v < 64, 32 < (symbol v).toNat ∧ (symbol v).toNat < 128 := by decide

theorem isAscii_of_mem_encode {bs : List UInt8} {s : UInt8} (h : s ∈ encode bs) :
    32 < s.toNat ∧ s.toNat < 128 := by
  fun_induction encode bs with
  | case1 => cases h
  | case2 a =>
    have ha := a.toNat_lt
    simp only [List.mem_cons, List.not_mem_nil, or_false] at h
    rcases h with rfl | rfl <;> exact isAscii_symbol _ (by omega)
  | case3 a b =>
    have ha := a.toNat_lt
    have hb := b.toNat_lt
    simp only [List.mem_cons, List.not_mem_nil, or_false] at h
    rcases h with rfl | rfl | rfl <;> exact isAscii_symbol _ (by omega)
  | case4 a b c rest ih =>
    have ha := a.toNat_lt
    have hb := b.toNat_lt
    have hc := c.toNat_lt
    simp only [List.mem_cons] at h
    rcases h with rfl | rfl | rfl | rfl | h
    · exact isAscii_symbol _ (by omega)
    · exact isAscii_symbol _ (by omega)
    · exact isAscii_symbol _ (by omega)
    · exact isAscii_symbol _ (by omega)
    · exact ih h

end Keyset.Text.Base64Url
