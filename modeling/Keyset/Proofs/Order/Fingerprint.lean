import Keyset.Order.Fingerprint
import Keyset.Proofs.Order.Names

/-! # What a fingerprint stands for

The text of a fingerprint joins a piece for each key column by commas, and a
piece ends in four characters that tell direction and null place. A comma in a
name is not told from one between pieces. If no name has one, the text is cut
at its commas into the pieces it was made of, and so determines the name, the
direction and the null place of each key column (`fingerprintText_eq_iff`). -/

namespace Keyset

open Text

namespace SortColumn

/-- What a fingerprint says of a column: its name up to letter case, its direction and where null
goes. -/
abbrev Signature := String × Direction × NullPlace

def signature (c : SortColumn) : Signature := (fold c.name, c.direction, c.nullPlace)

/-- The four characters behind the name. -/
def suffix : Direction → NullPlace → List Char
  | .ascending, .first => ":a:f".toList
  | .ascending, .last => ":a:l".toList
  | .descending, .first => ":d:f".toList
  | .descending, .last => ":d:l".toList

/-- The piece of the text for a column. -/
def piece : Signature → List Char
  | (name, direction, nulls) => name.toList ++ suffix direction nulls

theorem length_suffix (d : Direction) (n : NullPlace) : (suffix d n).length = 4 := by
  cases d <;> cases n <;> rfl

theorem suffix_inj {d d' : Direction} {n n' : NullPlace} (h : suffix d n = suffix d' n') :
    d = d' ∧ n = n' := by
  revert h
  cases d <;> cases n <;> cases d' <;> cases n' <;> decide

theorem comma_notMem_suffix (d : Direction) (n : NullPlace) : ',' ∉ suffix d n := by
  cases d <;> cases n <;> decide

/-- The suffix has a fixed length, so the name is what stands before it. -/
theorem piece_inj {s s' : Signature} (h : piece s = piece s') : s = s' := by
  obtain ⟨name, d, n⟩ := s
  obtain ⟨name', d', n'⟩ := s'
  obtain ⟨hname, hsuffix⟩ := List.append_inj' h (by rw [length_suffix, length_suffix])
  obtain ⟨hdirection, hnulls⟩ := suffix_inj hsuffix
  rw [String.toList_inj.mp hname, hdirection, hnulls]

theorem toList_fingerprintText (c : SortColumn) :
    c.fingerprintText.toList = piece c.signature := by
  rw [fingerprintText, String.toList_append, String.toList_append, List.append_assoc, signature,
    piece]
  cases c.direction <;> cases c.nullPlace <;> rfl

end SortColumn

theorem Text.comma_mem_of_fold {s : String} (h : ',' ∈ (fold s).toList) : ',' ∈ s.toList := by
  rw [fold, String.toList_ofList] at h
  obtain ⟨c, hc, hlower⟩ := List.mem_map.mp h
  -- the lower case of no capital is a comma
  have hnat := congrArg Char.toNat hlower
  have hcomma : ','.toNat = 44 := rfl
  rw [toNat_toLower, hcomma] at hnat
  split at hnat
  · omega
  · rwa [Char.toNat_inj.mp (hnat.trans hcomma.symm)] at hc

namespace SortOrder

open SortColumn (Signature piece)

/-- What a fingerprint says of an ordering, column by column. -/
def signature (o : SortOrder) : List Signature := o.key.map SortColumn.signature

/-- No key column has a comma in its name. -/
def CommaFree (o : SortOrder) : Prop := ∀ c ∈ o.key, ',' ∉ c.name.toList

instance (o : SortOrder) : Decidable o.CommaFree :=
  inferInstanceAs (Decidable (∀ c ∈ o.key, ',' ∉ c.name.toList))

variable {a b : SortOrder}

theorem toList_fingerprintText (o : SortOrder) :
    o.fingerprintText.toList = [','].intercalate (o.signature.map piece) := by
  have hpieces : (o.key.map SortColumn.fingerprintText).map String.toList =
      o.signature.map piece := by
    rw [signature, List.map_map, List.map_map]
    exact List.map_congr_left fun c _ => c.toList_fingerprintText
  rw [fingerprintText, String.toList_intercalate, hpieces]
  rfl

/-- Cutting the text at its commas gives the pieces it was joined of. -/
theorem CommaFree.splitOn_fingerprintText (h : a.CommaFree) :
    a.fingerprintText.toList.splitOn ',' = a.signature.map piece := by
  rw [toList_fingerprintText]
  refine List.splitOn_intercalate ',' (fun text htext hcomma => ?_) ?_
  · rw [signature, List.map_map] at htext
    obtain ⟨c, hc, rfl⟩ := List.mem_map.mp htext
    rcases List.mem_append.mp hcomma with hname | hsuffix
    · exact h c hc (comma_mem_of_fold hname)
    · exact SortColumn.comma_notMem_suffix _ _ hsuffix
  · rw [signature, Ne, List.map_eq_nil_iff, List.map_eq_nil_iff]
    exact a.key_ne_nil

/-- Without commas in names the text says what the key columns are, and nothing else. -/
theorem fingerprintText_eq_iff (ha : a.CommaFree) (hb : b.CommaFree) :
    a.fingerprintText = b.fingerprintText ↔ a.signature = b.signature := by
  constructor
  · intro h
    have hpieces : a.signature.map piece = b.signature.map piece := by
      rw [← ha.splitOn_fingerprintText, ← hb.splitOn_fingerprintText, h]
    exact (List.map_inj_right fun _ _ => SortColumn.piece_inj).mp hpieces
  · intro h
    rw [← String.toList_inj, toList_fingerprintText, toList_fingerprintText, h]

/-! ## The hash of the text -/

theorem fingerprintHex_inj (h : a.fingerprintHex = b.fingerprintHex) :
    a.fingerprint = b.fingerprint := by
  have hdigits : Number.hex 16 a.fingerprint.toNat = Number.hex 16 b.fingerprint.toNat := by
    have hlist := congrArg String.toList h
    rwa [fingerprintHex, fingerprintHex, String.toList_ofList, String.toList_ofList] at hlist
  have hnumber := congrArg Number.ofHex? hdigits
  have hbound : Nat.pow 16 16 = 2 ^ 64 := rfl
  rw [Number.ofHex?_hex, Number.ofHex?_hex, Option.some.injEq, hbound,
    Nat.mod_eq_of_lt a.fingerprint.toNat_lt, Nat.mod_eq_of_lt b.fingerprint.toNat_lt] at hnumber
  exact UInt64.toNat_inj.mp hnumber

theorem fingerprintHex_congr (h : a.fingerprintText = b.fingerprintText) :
    a.fingerprintHex = b.fingerprintHex := by
  rw [fingerprintHex, fingerprintHex, fingerprint, fingerprint, h]

end SortOrder

end Keyset
