import Keyset.Text.Pieces

/-! # Pieces of a joined text

Pieces without the separator, joined by it, are the pieces of what they make
(`split_of_joined`). What a piece holds is in the text and is not the separator. -/

namespace Keyset.Text

variable {sep : Char}

theorem pieces_eq_splitOn (sep : Char) (cs : List Char) : pieces sep cs = cs.splitOn sep := by
  induction cs with
  | nil => rw [pieces, List.splitOn_nil]
  | cons c cs ih =>
    rw [pieces, List.splitOn_cons_eq_if_modifyHead, ih]
    obtain ⟨p, ps, hp⟩ := List.exists_cons_of_ne_nil (ih ▸ pieces_ne_nil sep cs)
    simp [hp]

theorem split_of_joined {s : String} {parts : List String}
    (hs : s.toList = [sep].intercalate (parts.map String.toList))
    (h : ∀ part ∈ parts, sep ∉ part.toList) (hne : parts ≠ []) : split sep s = parts := by
  have hpieces : pieces sep s.toList = parts.map String.toList := by
    rw [pieces_eq_splitOn, hs]
    exact List.splitOn_intercalate sep (List.forall_mem_map.mpr h) (by simpa using hne)
  simp [split, hpieces, List.map_map, Function.comp_def]

theorem mem_of_mem_joined {ps : List (List Char)} {c : Char} (h : c ∈ [sep].intercalate ps) :
    c = sep ∨ ∃ p ∈ ps, c ∈ p := by
  induction ps with
  | nil => cases h
  | cons p ps ih =>
    cases ps with
    | nil => exact Or.inr ⟨p, List.mem_cons_self, by simpa using h⟩
    | cons q qs =>
      rw [List.intercalate_cons_cons, List.append_assoc, List.mem_append, List.singleton_append,
        List.mem_cons] at h
      rcases h with hfirst | rfl | hrest
      · exact Or.inr ⟨p, List.mem_cons_self, hfirst⟩
      · exact Or.inl rfl
      · refine (ih hrest).imp_right fun ⟨r, hr, hc⟩ => ⟨r, List.mem_cons_of_mem p hr, hc⟩

theorem mem_of_mem_pieces {cs p : List Char} (hp : p ∈ pieces sep cs) :
    ∀ c ∈ p, c ≠ sep ∧ c ∈ cs := by
  induction cs generalizing p with
  | nil => simp_all [pieces]
  | cons d cs ih =>
    have hlater {q : List Char} (hq : q ∈ pieces sep cs) : ∀ c ∈ q, c ≠ sep ∧ c ∈ d :: cs :=
      fun c hc => ⟨(ih hq c hc).1, List.mem_cons_of_mem d (ih hq c hc).2⟩
    rw [pieces] at hp
    split at hp
    · rcases List.mem_cons.mp hp with rfl | hp
      · simp
      · exact hlater hp
    · rename_i hd
      obtain ⟨q, qs, hq⟩ := List.exists_cons_of_ne_nil (pieces_ne_nil sep cs)
      rw [hq] at hp
      rcases List.mem_cons.mp hp with rfl | hp
      · -- the character goes to the front of the first piece
        refine List.forall_mem_cons.mpr ⟨⟨hd, List.mem_cons_self⟩, hlater ?_⟩
        rw [hq]
        exact List.mem_cons_self
      · exact hlater (hq ▸ List.mem_cons_of_mem q hp)

theorem mem_of_mem_split {s part : String} (h : part ∈ split sep s) :
    ∀ c ∈ part.toList, c ≠ sep ∧ c ∈ s.toList := by
  obtain ⟨p, hp, rfl⟩ := List.mem_map.mp h
  rw [String.toList_ofList]
  exact mem_of_mem_pieces hp

end Keyset.Text
