import Keyset.Order.Text
import Keyset.Proofs.Cursor.Names
import Keyset.Proofs.Text.Blank
import Keyset.Proofs.Text.Pieces

/-! # Orderings are read back from their text

A column that is read has a trimmed name without separators, whatever the blanks
and flags it was read from (`spellable_of_ofText`). Such a column is read back
from its own text (`SortColumn.ofText_text`): the name is the first piece, and
each flag behind it sets what it was written for. So an ordering that is read is
read back (`SortOrder.ofText_text_of_ofText`). -/

namespace Keyset

open Text

namespace SortColumn

/-- The name can be told from what stands around it in a text. -/
structure Spellable (c : SortColumn) : Prop where
  name_ne : c.name ≠ ""
  trimmed : strip c.name = c.name
  colon : ':' ∉ c.name.toList
  comma : ',' ∉ c.name.toList

variable {c : SortColumn}

/-! ## Flags -/

/-- What a flag is written as. -/
def flagWords : List String :=
  ["asc", "desc", "nullable", "distinct", "nulls-first", "nulls-last"]

theorem flags_subset (c : SortColumn) : c.flags ⊆ flagWords := by
  obtain ⟨name, direction, nullable, distinct, nulls⟩ := c
  cases direction <;> cases nullable <;> cases distinct <;> rcases nulls with _ | _ | _ <;>
    simp [flags, flagWords]

theorem separator_notMem_flags {flag : String} (h : flag ∈ c.flags) :
    ':' ∉ flag.toList ∧ ',' ∉ flag.toList := by
  have hall : ∀ word ∈ flagWords, ':' ∉ word.toList ∧ ',' ∉ word.toList := by decide
  exact hall flag (flags_subset c h)

/-- The flags of a column make it of the plain one. -/
theorem withFlags_flags (c : SortColumn) :
    withFlags ⟨c.name, .ascending, false, false, none⟩ c.flags = .ok c := by
  obtain ⟨name, direction, nullable, distinct, nulls⟩ := c
  cases direction <;> cases nullable <;> cases distinct <;> rcases nulls with _ | _ | _ <;> rfl

theorem name_withFlag? {d : SortColumn} {flag : String} (h : c.withFlag? flag = some d) :
    d.name = c.name := by
  unfold withFlag? at h
  split at h <;> cases h <;> rfl

/-- Flags leave the name as it is. -/
theorem name_withFlags {d : SortColumn} {flags : List String} (h : c.withFlags flags = .ok d) :
    d.name = c.name := by
  induction flags generalizing c with
  | nil => cases h; rfl
  | cons flag flags ih =>
    rw [withFlags] at h
    split at h
    · rename_i hflag
      exact (ih h).trans (name_withFlag? hflag)
    · cases h

/-! ## One column -/

theorem toList_text (c : SortColumn) :
    c.text.toList = [':'].intercalate ((c.name :: c.flags).map String.toList) := by
  rw [text, String.toList_intercalate]
  rfl

theorem split_text (h : c.Spellable) : split ':' c.text = c.name :: c.flags := by
  refine split_of_joined c.toList_text ?_ (List.cons_ne_nil _ _)
  intro part hpart
  rcases List.mem_cons.mp hpart with rfl | hflag
  · exact h.colon
  · exact (separator_notMem_flags hflag).1

theorem ofText_text (h : c.Spellable) : ofText c.text = .ok c := by
  have hname : (strip c.name).isEmpty = false := by
    rw [h.trimmed]
    exact Bool.eq_false_iff.mpr fun hempty => h.name_ne (String.isEmpty_iff.mp hempty)
  rw [ofText, split_text h]
  simp only [hname, Bool.false_eq_true, if_false]
  rw [named, h.trimmed, withFlags_flags]

theorem comma_notMem_text (h : c.Spellable) : ',' ∉ c.text.toList := by
  intro hcomma
  rw [toList_text] at hcomma
  rcases mem_of_mem_joined hcomma with hsep | ⟨part, hpart, hmem⟩
  · exact absurd hsep (by decide)
  · obtain ⟨word, hword, rfl⟩ := List.mem_map.mp hpart
    rcases List.mem_cons.mp hword with rfl | hflag
    · exact h.comma hmem
    · exact (separator_notMem_flags hflag).2 hmem

/-- No column is skipped as blank, for it states a direction. -/
theorem strip_text_ne_empty (c : SortColumn) : (strip c.text).isEmpty = false := by
  have hcolon : ':' ∈ c.text.toList := by
    obtain ⟨flag, flags, hflags⟩ : ∃ flag flags, c.flags = flag :: flags := by
      unfold flags
      cases c.direction <;> exact ⟨_, _, rfl⟩
    rw [toList_text, hflags, List.map_cons, List.map_cons, List.intercalate_cons_cons]
    simp
  refine Bool.eq_false_iff.mpr ?_
  intro hempty
  have htrim : trim c.text.toList = [] := by
    have hstrip := congrArg String.toList (String.isEmpty_iff.mp hempty)
    rwa [strip, String.toList_ofList] at hstrip
  exact absurd (isBlank_of_trim_eq_nil htrim ':' hcolon) (by decide)

/-- What is read from a piece of an ordering can be told from what stands around it. -/
theorem spellable_of_ofText {s : String} (h : ofText s = .ok c) (hcomma : ',' ∉ s.toList) :
    c.Spellable := by
  unfold ofText at h
  split at h
  · cases h
  · rename_i name flags hsplit
    split at h
    · cases h
    · rename_i hne
      have hname : c.name = strip name := name_withFlags h
      have hpiece := mem_of_mem_split (hsplit ▸ List.mem_cons_self : name ∈ split ':' s)
      have hkept : ∀ d ∈ (strip name).toList, d ≠ ':' ∧ d ∈ s.toList := by
        intro d hd
        rw [strip, String.toList_ofList] at hd
        exact hpiece d ((trim_sublist name.toList).subset hd)
      refine ⟨?_, ?_, ?_, ?_⟩ <;> rw [hname]
      · intro hempty
        exact hne (String.isEmpty_iff.mpr hempty)
      · exact strip_strip name
      · intro hcolon
        exact (hkept ':' hcolon).1 rfl
      · intro hmem
        exact hcomma (hkept ',' hmem).2

end SortColumn

/-! ## Orderings -/

namespace SortOrder

variable {o : SortOrder}

theorem toList_text (o : SortOrder) :
    o.text.toList = [','].intercalate ((o.columns.map SortColumn.text).map String.toList) := by
  rw [text, String.toList_intercalate]
  rfl

theorem mapM_ofText_text {cs : List SortColumn} (h : ∀ c ∈ cs, c.Spellable) :
    (cs.map SortColumn.text).mapM SortColumn.ofText = .ok cs := by
  induction cs with
  | nil => rfl
  | cons c cs ih =>
    obtain ⟨hc, hcs⟩ := List.forall_mem_cons.mp h
    rw [List.map_cons, List.mapM_cons, SortColumn.ofText_text hc, ih hcs]
    rfl

theorem mem_of_mapM_ofText {parts : List String} {cs : List SortColumn}
    (h : parts.mapM SortColumn.ofText = .ok cs) :
    ∀ c ∈ cs, ∃ part ∈ parts, SortColumn.ofText part = .ok c := by
  induction parts generalizing cs with
  | nil => cases h; simp
  | cons part parts ih =>
    rw [List.mapM_cons] at h
    cases hc : SortColumn.ofText part with
    | error e => rw [hc] at h; cases h
    | ok c =>
      cases hcs : parts.mapM SortColumn.ofText with
      | error e => rw [hc, hcs] at h; cases h
      | ok rest =>
        rw [hc, hcs] at h
        cases h
        refine List.forall_mem_cons.mpr ⟨⟨part, List.mem_cons_self, hc⟩, ?_⟩
        intro d hd
        obtain ⟨later, hlater, hread⟩ := ih hcs d hd
        exact ⟨later, List.mem_cons_of_mem part hlater, hread⟩

/-- An ordering of columns that can be told apart in a text is read back from its own. -/
theorem ofText_text (h : ∀ c ∈ o.columns, c.Spellable) : ofText o.text = .ok o := by
  have hne : o.columns ≠ [] := by
    intro hnil
    have hsound := o.sound
    rw [hnil] at hsound
    cases hsound
  have hsplit : split ',' o.text = o.columns.map SortColumn.text := by
    refine split_of_joined o.toList_text ?_ (by simpa using hne)
    exact List.forall_mem_map.mpr fun c hc => SortColumn.comma_notMem_text (h c hc)
  have hkept : (o.columns.map SortColumn.text).filter (fun part => !(strip part).isEmpty) =
      o.columns.map SortColumn.text := by
    refine List.filter_eq_self.mpr (List.forall_mem_map.mpr fun c _ => ?_)
    rw [c.strip_text_ne_empty]
    rfl
  rw [ofText, hsplit, hkept, mapM_ofText_text h]
  exact ofColumns_eq_ok_iff.mpr rfl

theorem spellable_of_ofText {s : String} (h : ofText s = .ok o) :
    ∀ c ∈ o.columns, c.Spellable := by
  have hparts : (((split ',' s).filter fun part => !(strip part).isEmpty).mapM SortColumn.ofText
      >>= ofColumns) = .ok o := h
  cases hread : ((split ',' s).filter fun part => !(strip part).isEmpty).mapM SortColumn.ofText with
  | error e => rw [hread] at hparts; cases hparts
  | ok cs =>
    rw [hread] at hparts
    obtain rfl : cs = o.columns := ofColumns_eq_ok_iff.mp hparts
    intro c hc
    obtain ⟨part, hpart, hcolumn⟩ := mem_of_mapM_ofText hread c hc
    have hpiece := mem_of_mem_split (List.mem_of_mem_filter hpart)
    exact SortColumn.spellable_of_ofText hcolumn fun hcomma => (hpiece ',' hcomma).1 rfl

/-- **An ordering is read back from its text.** If an ordering was read from any text, with blank
columns, blanks around names and flags, and flags in any order, in any case and more than once, then
its own text is read as the same ordering. -/
theorem ofText_text_of_ofText {s : String} (h : ofText s = .ok o) : ofText o.text = .ok o :=
  ofText_text (spellable_of_ofText h)

end SortOrder

/-- Posts by score, the highest first and those without one at the end. -/
def Post.topScored : SortOrder :=
  ⟨[⟨"Score", .descending, true, false, some .last⟩, ⟨"id", .ascending, false, true, none⟩],
    by decide⟩

/-- Blank columns, blanks and repeated flags are not in the text that is read back. -/
theorem Post.topScored_read_back :
    SortOrder.ofText ",\tScore : Nulls-First:asc: NULLABLE :desc:nulls-last ,, id:DISTINCT " =
      .ok topScored ∧
    topScored.text = "Score:desc:nullable:nulls-last,id:asc:distinct" ∧
    SortOrder.ofText topScored.text = .ok topScored := by
  have hread : SortOrder.ofText
      ",\tScore : Nulls-First:asc: NULLABLE :desc:nulls-last ,, id:DISTINCT " = .ok topScored := by
    rfl
  exact ⟨hread, by decide, SortOrder.ofText_text_of_ofText hread⟩

end Keyset
