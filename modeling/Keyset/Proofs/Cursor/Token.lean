import Keyset.Cursor.Token
import Keyset.Proofs.Text.Base64Url
import Keyset.Proofs.Text.Blank
import Keyset.Proofs.Value.Text

/-! # Cursors come back from their tokens

Every layer of a token is undone by its reader: the entries of a dictionary, the
document of a cursor, the envelope around it, the bytes and the symbols. A token
is made of visible symbols only, so blanks around it are no part of it
(`trim_blanks`). A token of at most 8192 bytes thus gives its envelope back if
all numbers in it are finite, and any other token is refused
(`Envelope.ofToken_blanks_eq`). The cursor comes back if it fits the ordering
(`ofToken_token`). -/

namespace Keyset
open Json Text

/-! ## Dictionaries -/

namespace Dictionary

variable {α : Type}

theorem put_of_lt {name : String} {a : α} {es : List (String × α)}
    (h : ∀ e ∈ es, compare e.1 name = .lt) : put name a es = es ++ [(name, a)] := by
  induction es with
  | nil => rfl
  | cons e es ih =>
    have he : compare name e.1 = .gt := Std.OrientedCmp.gt_of_lt (h e (by simp))
    rw [put, he]
    simp only [List.cons_append, ih fun x hx => h x (List.mem_cons_of_mem e hx)]

theorem foldl_insert (es : List (String × α)) (d : Dictionary α)
    (h : (d.entries ++ es).Pairwise fun a b => compare a.1 b.1 = .lt) :
    (es.foldl (fun d e => d.insert e.1 e.2) d).entries = d.entries ++ es := by
  induction es generalizing d with
  | nil => simp
  | cons e es ih =>
    have hlast : (d.insert e.1 e.2).entries = d.entries ++ [e] :=
      put_of_lt fun x hx => (List.pairwise_append.mp h).2.2 x hx e (by simp)
    rw [List.foldl_cons, ih _ (by rw [hlast, List.append_assoc]; exact h), hlast,
      List.append_assoc, List.singleton_append]

theorem ofList_entries (d : Dictionary α) : ofList d.entries = d :=
  ext_entries (foldl_insert d.entries empty d.ascending)

end Dictionary

/-! ## Documents -/

namespace Cursor

/-- No value is a NaN or an infinity. -/
def isFinite (c : Cursor) : Bool := c.values.entries.all (·.2.isFinite)

theorem spelled_document (c : Cursor) : c.document.Spelled := by
  refine Document.spelled_record fun m hm => ?_
  obtain ⟨⟨name, v⟩, -, rfl⟩ := List.mem_map.mp hm
  exact v.spelled_document

theorem ofDocument?_document {c : Cursor} (h : c.isFinite = true) :
    ofDocument? c.document = some c := by
  have hvalues : ∀ e ∈ c.values.entries, Value.ofDocument? e.2.document = some e.2 :=
    fun e he => Value.ofDocument?_document (List.all_eq_true.mp h e he)
  rw [ofDocument?, document, Document.pairs?_record hvalues, Option.map_some,
    Dictionary.ofList_entries]

theorem ofDocument?_of_not_finite {c : Cursor} (h : c.isFinite = false) :
    ofDocument? c.document = none := by
  obtain ⟨e, he, hvalue⟩ := List.all_eq_false.mp h
  have hnone : Value.ofDocument? e.2.document = none :=
    Value.ofDocument?_of_not_finite (Bool.not_eq_true _ ▸ hvalue)
  rw [ofDocument?, document, Document.pairs?_record_eq_none ⟨e, he, hnone⟩, Option.map_none]

namespace Envelope

theorem spelled_document (e : Envelope) : e.document.Spelled := by
  refine Document.spelled_record fun m hm => ?_
  simp only [List.mem_cons, List.not_mem_nil, or_false] at hm
  rcases hm with rfl | rfl | rfl
  · exact Document.spelled_ofNat _
  · exact Document.spelled_ofString _
  · exact e.cursor.spelled_document

theorem ofDocument?_document {e : Envelope} (hv : e.version < 256) :
    ofDocument? e.document = if e.cursor.isFinite then some e else none := by
  have hversion := Document.below?_ofNat hv
  cases hc : e.cursor.isFinite with
  | true =>
    have hcursor := Cursor.ofDocument?_document hc
    simp [ofDocument?, document, Document.record, Document.record?, Document.members?,
      Document.field?, Document.ofString, Document.string?, hversion, hcursor]
  | false =>
    have hcursor := Cursor.ofDocument?_of_not_finite hc
    simp [ofDocument?, document, Document.record, Document.record?, Document.members?,
      Document.field?, Document.ofString, Document.string?, hversion, hcursor]

/-! ## Symbols -/

/-- The bytes that a token spells. -/
def payload (e : Envelope) : List UInt8 := Utf8.encode e.document.render

theorem toList_token (e : Envelope) :
    e.token.toList = (Base64Url.encode e.payload).map Utf8.ascii :=
  String.toList_ofList

theorem encode_toList_token (e : Envelope) :
    Utf8.encode e.token.toList = Base64Url.encode e.payload := by
  rw [toList_token]
  exact Utf8.encode_ascii fun s hs => (Base64Url.isAscii_of_mem_encode hs).2

theorem not_blank_of_mem_token {e : Envelope} {c : Char} (h : c ∈ e.token.toList) :
    isBlank c = false := by
  rw [toList_token] at h
  obtain ⟨s, hs, rfl⟩ := List.mem_map.mp h
  obtain ⟨hlow, hhigh⟩ := Base64Url.isAscii_of_mem_encode hs
  rw [← Utf8.toNat_ascii hhigh] at hlow hhigh
  exact isBlank_of_visible hlow hhigh

theorem encode_payload_ne_nil (e : Envelope) : Base64Url.encode e.payload ≠ [] := by
  obtain ⟨c, cs, hrender, -⟩ := e.document.render_opens e.spelled_document
  intro h
  have hdecode := Base64Url.decode_encode e.payload
  rw [h] at hdecode
  have hempty : e.payload = [] := (Except.ok.inj hdecode).symm
  have hchars := Utf8.decode_encode e.document.render
  rw [← payload, hempty, hrender, Utf8.decode] at hchars
  cases hchars

/-- What becomes of the token of an envelope of the known version, blanks around it or not. -/
theorem ofToken_blanks_eq {e : Envelope} {before after : List Char}
    (hv : e.version = tokenVersion) (hb : ∀ c ∈ before, isBlank c = true)
    (ha : ∀ c ∈ after, isBlank c = true) :
    ofToken (String.ofList (before ++ e.token.toList ++ after)) =
      if CursorError.sizeLimit < e.token.utf8ByteSize then .error (.tooLong e.token.utf8ByteSize)
      else if e.cursor.isFinite then .ok e else .error .payload := by
  have hne := e.encode_payload_ne_nil
  have htoken : e.token.toList ≠ [] := by
    rw [toList_token]
    exact fun h => hne (List.map_eq_nil_iff.mp h)
  have htrim : Utf8.encode (trim (before ++ e.token.toList ++ after)) =
      Base64Url.encode e.payload := by
    rw [trim_blanks hb ha (fun _ => not_blank_of_mem_token) htoken, encode_toList_token]
  have hread : (Document.ofBytes? e.payload).bind ofDocument? =
      if e.cursor.isFinite then some e else none := by
    rw [payload, Document.ofBytes?_encode e.spelled_document, Option.bind_some,
      ofDocument?_document (by rw [hv]; decide)]
  have hsize : e.token.utf8ByteSize = (Base64Url.encode e.payload).length := by
    rw [← Utf8.length_encode, encode_toList_token]
  simp only [ofToken, String.toList_ofList, htrim, Base64Url.decode_encode, hread, hsize]
  rw [if_neg (by simpa using hne)]
  cases e.cursor.isFinite with
  | true => simp only [if_true, if_pos hv]
  | false => simp only [Bool.false_eq_true, if_false]

end Envelope

/-! ## Tokens -/

variable {c : Cursor} {o : SortOrder}

/-- What becomes of the token of a cursor, blanks around it or not, whatever ordering it is read
for. -/
theorem ofToken_blanks_eq (c : Cursor) (a b : SortOrder) {before after : List Char}
    (hb : ∀ ch ∈ before, isBlank ch = true) (ha : ∀ ch ∈ after, isBlank ch = true) :
    ofToken (String.ofList (before ++ (c.token a).toList ++ after)) b =
      if CursorError.sizeLimit < (c.token a).utf8ByteSize then
        .error (.tooLong (c.token a).utf8ByteSize)
      else if c.isFinite then
        if a.fingerprintHex = b.fingerprintHex then (c.fit b).map fun _ => c
        else .error .orderMismatch
      else .error .payload := by
  have hread := Envelope.ofToken_blanks_eq (e := ⟨tokenVersion, a.fingerprintHex, c⟩) rfl hb ha
  rw [ofToken, token, hread]
  split
  · rfl
  · split
    · simp only [bind, Except.bind, pure, Except.pure]
      by_cases hp : a.fingerprintHex = b.fingerprintHex
      · rw [if_pos hp, if_neg (not_not.mpr hp)]
        cases c.fit b <;> rfl
      · rw [if_neg hp, if_pos hp]
        rfl
    · rfl

theorem ofToken_token_eq (c : Cursor) (a b : SortOrder) :
    ofToken (c.token a) b =
      if CursorError.sizeLimit < (c.token a).utf8ByteSize then
        .error (.tooLong (c.token a).utf8ByteSize)
      else if c.isFinite then
        if a.fingerprintHex = b.fingerprintHex then (c.fit b).map fun _ => c
        else .error .orderMismatch
      else .error .payload := by
  have hnone : ∀ ch ∈ ([] : List Char), isBlank ch = true := fun _ h => by cases h
  have h := ofToken_blanks_eq c a b hnone hnone
  rwa [List.nil_append, List.append_nil, String.ofList_toList] at h

theorem ofToken_blanks {before after : List Char} {k : Nat} (hfit : c.fit o = .ok k)
    (hc : c.isFinite = true) (hsize : (c.token o).utf8ByteSize ≤ CursorError.sizeLimit)
    (hb : ∀ ch ∈ before, isBlank ch = true) (ha : ∀ ch ∈ after, isBlank ch = true) :
    ofToken (String.ofList (before ++ (c.token o).toList ++ after)) o = .ok c := by
  rw [ofToken_blanks_eq c o o hb ha, if_neg (Nat.not_lt.mpr hsize), if_pos hc, if_pos rfl, hfit]
  rfl

/-- A token that is not too long gives its cursor back. -/
theorem ofToken_token {k : Nat} (hfit : c.fit o = .ok k) (hc : c.isFinite = true)
    (hsize : (c.token o).utf8ByteSize ≤ CursorError.sizeLimit) :
    ofToken (c.token o) o = .ok c := by
  rw [ofToken_token_eq, if_neg (Nat.not_lt.mpr hsize), if_pos hc, if_pos rfl, hfit]
  rfl

/-- **Tokens lose nothing.** Let a cursor fit an ordering, its numbers be finite and its token be
no longer than a token may be. Reading the token, blanks around it or not, gives the cursor: every
name, and every value of the same kind, the sign of a zero and the escapes of a text included. -/
theorem token_round_trip (o : SortOrder) (c : Cursor) (fits : ∃ k, c.fit o = .ok k)
    (finite : c.isFinite = true) (short : (c.token o).utf8ByteSize ≤ CursorError.sizeLimit) :
    ofToken (c.token o) o = .ok c ∧
      ∀ before after : String, (∀ ch ∈ before.toList, isBlank ch = true) →
        (∀ ch ∈ after.toList, isBlank ch = true) →
        ofToken (before ++ c.token o ++ after) o = .ok c := by
  obtain ⟨k, hfit⟩ := fits
  refine ⟨ofToken_token hfit finite short, fun before after hb ha => ?_⟩
  have htext : String.ofList (before.toList ++ (c.token o).toList ++ after.toList) =
      before ++ c.token o ++ after := by
    rw [← String.toList_inj, String.toList_ofList, String.toList_append, String.toList_append]
  rw [← htext]
  exact ofToken_blanks hfit finite short hb ha

end Cursor

/-- Posts by title, weight and time. -/
def Post.chronicle : SortOrder :=
  ⟨[⟨"title", .ascending, false, false, none⟩, ⟨"weight", .descending, true, false, none⟩,
    ⟨"at", .ascending, false, false, none⟩, ⟨"id", .ascending, false, true, none⟩], by decide⟩

/-- A position with quotes, a backslash and a control character, a negative zero, half past a leap
second and a character outside the first plane. -/
def Post.midnight : Cursor :=
  .ofPairs [("title", .string "\"a\\b\"\n\x07é😀"), ("weight", .float ⟨0x8000000000000000⟩),
    ("at", .timestamp ⟨1483228799, 1500000000, by decide, by decide, by decide, by decide⟩),
    ("id", .uint 7)]

theorem Post.midnight_round_trip :
    Cursor.ofToken (midnight.token chronicle) chronicle = .ok midnight ∧
      Cursor.ofToken ("\t\u00a0" ++ midnight.token chronicle ++ "\r\n") chronicle =
        .ok midnight := by
  obtain ⟨hplain, hspaced⟩ := Cursor.token_round_trip chronicle midnight ⟨4, by decide⟩
    (by decide) (by decide +kernel)
  have hbefore : "\t\u00a0".toList.all isBlank = true := by decide
  have hafter : "\r\n".toList.all isBlank = true := by decide
  exact ⟨hplain, hspaced _ _ (List.all_eq_true.mp hbefore) (List.all_eq_true.mp hafter)⟩

end Keyset
