import Keyset.Proofs.Sql.Pieces

/-! # Reading pieces back

Something is read back from its pieces if they tell what it is and where it
ends, whatever stands behind them (`ReadBack`). That needs a condition on what
stands behind: in a query it is nothing, or it begins with one of a few words
(`Follows`). Words that cannot be taken for each other (`Apart`) tell whether a
clause is there and whether a list goes on. So things that are read back can be
put one after another, left out or listed, and are still read back
(`ReadBack.append`, `ReadBack.clause`, `ReadBack.commaSeparated`). -/

namespace Keyset.Sql

/-! ## Pieces before what follows -/

/-- Text and parameters that are still to come. -/
@[ext]
structure Rest where
  text : List Char
  values : List Value

namespace Rest

/-- With more text in front. -/
def push (cs : List Char) (r : Rest) : Rest := ⟨cs ++ r.text, r.values⟩

theorem push_inj {cs : List Char} {r r' : Rest} : r.push cs = r'.push cs ↔ r = r' := by
  cases r
  cases r'
  simp [push]

end Rest

namespace Piece

/-- Pieces in front of what is still to come, where `index` parameters come before them. -/
def before (d : Dialect) : Nat → List Piece → Rest → Rest
  | _, [], r => r
  | index, .text s :: ps, r => (before d index ps r).push s.toList
  | index, .bound v :: ps, r =>
    let next := before d (index + 1) ps r
    Rest.push (d.placeholder index).toList ⟨next.text, v :: next.values⟩

variable {d : Dialect} {index : Nat} {r : Rest}

theorem before_append (ps qs : List Piece) :
    before d index (ps ++ qs) r =
      before d index ps (before d (index + (parameters ps).length) qs r) := by
  induction ps generalizing index with
  | nil => rfl
  | cons p ps ih =>
    cases p with
    | text s => simp only [List.cons_append, before, ih, parameters_text]
    | bound v =>
      simp only [List.cons_append, before, ih, parameters_bound, List.length_cons,
        Nat.add_assoc, Nat.add_comm 1]

theorem before_rendered (ps : List Piece) :
    before d index ps ⟨[], []⟩ = ⟨(sql d index ps).toList, parameters ps⟩ := by
  induction ps generalizing index with
  | nil => simp [before, sql, parameters]
  | cons p ps ih =>
    cases p with
    | text s => simp [before, sql, ih, Rest.push]
    | bound v => simp [before, sql, ih, Rest.push]

end Piece

open Piece

variable {d : Dialect}

/-! ## Reading back -/

/-- What is written can be read back, whatever comes behind it that `stop` allows. -/
def ReadBack {α : Type} (d : Dialect) (pieces : α → List Piece) (stop : List Char → Prop) : Prop :=
  ∀ ⦃a b : α⦄ ⦃index : Nat⦄ ⦃r r' : Rest⦄, stop r.text → stop r'.text →
    before d index (pieces a) r = before d index (pieces b) r' → a = b ∧ r = r'

namespace ReadBack

variable {α β : Type} {f : α → List Piece} {p q : List Char → Prop}

theorem mono (h : ReadBack d f p) (hq : ∀ t, q t → p t) : ReadBack d f q :=
  fun _ _ _ _ _ hr hr' he => h (hq _ hr) (hq _ hr') he

theorem comap (h : ReadBack d f p) {k : β → α} (hk : ∀ x y, k x = k y → x = y) :
    ReadBack d (fun x => f (k x)) p := by
  intro x y index r r' hr hr' he
  obtain ⟨hxy, hrest⟩ := h hr hr' he
  exact ⟨hk x y hxy, hrest⟩

theorem behind (s : String) (h : ReadBack d f p) : ReadBack d (fun a => .text s :: f a) p := by
  intro a b index r r' hr hr' he
  simp only [before, Rest.push_inj] at he
  exact h hr hr' he

end ReadBack

/-! ## What may follow -/

/-- Nothing, or text that begins with one of the words. -/
def Follows (words : List String) (t : List Char) : Prop :=
  t = [] ∨ ∃ w ∈ words, w.toList <+: t

/-- Words that are not empty, and none of which begins with a stop or begins one. -/
def Apart (stops words : List String) : Prop :=
  ∀ w ∈ words, w.toList ≠ [] ∧ ∀ s ∈ stops, ¬ s.toList <+: w.toList ∧ ¬ w.toList <+: s.toList

instance (stops words : List String) : Decidable (Apart stops words) :=
  inferInstanceAs (Decidable (∀ w ∈ words, _ ∧ ∀ s ∈ stops, _))

theorem Follows.coarser {words others : List String} {t : List Char} (h : Follows words t)
    (hw : ∀ w ∈ words, ∃ v ∈ others, v.toList <+: w.toList) : Follows others t := by
  refine h.imp_right fun ⟨w, hm, hp⟩ => ?_
  obtain ⟨v, hv, hvw⟩ := hw w hm
  exact ⟨v, hv, hvw.trans hp⟩

theorem Follows.not_prefix {stops words : List String} {t : List Char} (h : Follows stops t)
    (ha : Apart stops words) {w : String} (hw : w ∈ words) : ¬ w.toList <+: t := by
  intro hp
  obtain ⟨hne, hapart⟩ := ha w hw
  rcases h with rfl | ⟨s, hs, hst⟩
  · exact hne (List.prefix_nil.mp hp)
  · exact (List.prefix_or_prefix_of_prefix hst hp).elim (hapart s hs).1 (hapart s hs).2

/-- If what comes behind begins with one of the `stops`, then all begins with one of the `starts`. -/
def Leads {α : Type} (d : Dialect) (pieces : α → List Piece) (stops starts : List String) : Prop :=
  ∀ a index r, Follows stops r.text → Follows starts (before d index (pieces a) r).text

/-- The text of the pieces begins with one of the words, whatever comes behind. -/
def BeginsWith {α : Type} (d : Dialect) (words : List String) (pieces : α → List Piece) : Prop :=
  ∀ a index r, ∃ w ∈ words, w.toList <+: (before d index (pieces a) r).text

theorem beginsWith_text {α : Type} (s : String) (f : α → List Piece) :
    BeginsWith d [s] (fun a => .text s :: f a) :=
  fun _ _ _ => ⟨s, List.mem_singleton_self s, List.prefix_append _ _⟩

section
variable {α β : Type} {f : α → List Piece} {g : β → List Piece}
  {starts middle words stops : List String}

/-- What begins with a word is not what may follow. -/
theorem BeginsWith.before_ne (hf : BeginsWith d words f) (ha : Apart stops words) {r : Rest}
    (hr : Follows stops r.text) (a : α) (index : Nat) (r' : Rest) :
    before d index (f a) r' ≠ r := by
  obtain ⟨w, hw, hp⟩ := hf a index r'
  rintro rfl
  exact hr.not_prefix ha hw hp

/-! ## One thing after another -/

theorem Leads.append (hf : Leads d f middle starts) (hg : Leads d g stops middle) :
    Leads d (fun x : α × β => f x.1 ++ g x.2) stops starts := by
  intro x index r hr
  rw [before_append]
  exact hf x.1 _ _ (hg x.2 _ _ hr)

theorem ReadBack.append (hf : ReadBack d f (Follows middle)) (hg : ReadBack d g (Follows stops))
    (hlead : Leads d g stops middle) :
    ReadBack d (fun x : α × β => f x.1 ++ g x.2) (Follows stops) := by
  rintro ⟨a, b⟩ ⟨a', b'⟩ index r r' hr hr' he
  simp only [before_append] at he
  obtain ⟨rfl, hnext⟩ := hf (hlead _ _ _ hr) (hlead _ _ _ hr') he
  obtain ⟨rfl, hrest⟩ := hg hr hr' hnext
  exact ⟨rfl, hrest⟩

/-! ## Clauses -/

theorem BeginsWith.leads (hf : BeginsWith d words f) :
    Leads d (clause f) stops (words ++ stops) := by
  intro a index r hr
  cases a with
  | none => exact hr.coarser fun w hw => ⟨w, List.mem_append_right _ hw, List.prefix_refl _⟩
  | some a =>
    obtain ⟨w, hw, hp⟩ := hf a index r
    exact Or.inr ⟨w, List.mem_append_left _ hw, hp⟩

/-- A clause is there exactly if its words are. -/
theorem ReadBack.clause (h : ReadBack d f (Follows stops)) (hf : BeginsWith d words f)
    (ha : Apart stops words) : ReadBack d (clause f) (Follows stops) := by
  intro a b index r r' hr hr' he
  -- where the clause is left out there is a stop, which its words are not
  cases a <;> cases b
  case none.none => exact ⟨rfl, he⟩
  case none.some b => exact absurd he.symm (hf.before_ne ha hr b index r')
  case some.none a => exact absurd he (hf.before_ne ha hr' a index r)
  case some.some a b =>
    obtain ⟨rfl, hrest⟩ := h hr hr' he
    exact ⟨rfl, hrest⟩

/-! ## Lists -/

theorem follows_tail (as : List α) {index : Nat} {r : Rest} (hr : Follows stops r.text) :
    Follows (", " :: stops) (before d index (as.flatMap fun a => .text ", " :: f a) r).text := by
  cases as with
  | nil => exact hr.coarser fun w hw => ⟨w, List.mem_cons_of_mem _ hw, List.prefix_refl _⟩
  | cons a as => exact Or.inr ⟨", ", List.mem_cons_self, _, rfl⟩

/-- Items that each have a comma before them. -/
theorem ReadBack.tail (h : ReadBack d f (Follows (", " :: stops))) (ha : Apart stops [", "]) :
    ReadBack d (fun as : List α => as.flatMap fun a => .text ", " :: f a) (Follows stops) := by
  have hnone {r : Rest} (hr : Follows stops r.text) (r' : Rest) : r'.push ", ".toList ≠ r := by
    rintro rfl
    exact hr.not_prefix ha List.mem_cons_self (List.prefix_append _ _)
  intro as bs index r r' hr hr' he
  -- on the list that is read; a comma tells whether both lists go on
  induction as generalizing bs index r r' with
  | nil =>
    cases bs with
    | nil => exact ⟨rfl, he⟩
    | cons b bs => exact absurd he.symm (hnone hr _)
  | cons a as ih =>
    cases bs with
    | nil => exact absurd he (hnone hr' _)
    | cons b bs =>
      simp only [List.flatMap_cons, List.cons_append, before, Rest.push_inj, before_append] at he
      obtain ⟨rfl, hnext⟩ := h (follows_tail as hr) (follows_tail bs hr') he
      obtain ⟨rfl, hrest⟩ := ih hr hr' hnext
      exact ⟨rfl, hrest⟩

/-- Items between commas, or none. -/
theorem ReadBack.commaSeparated (h : ReadBack d f (Follows (", " :: stops)))
    (hf : BeginsWith d words f) (ha : Apart stops (", " :: words)) :
    ReadBack d (fun as : List α => Sql.commaSeparated (as.map f)) (Follows stops) := by
  have hcomma : Apart stops [", "] := fun w hw => ha w (by simp_all)
  have hwords : Apart stops words := fun w hw => ha w (List.mem_cons_of_mem _ hw)
  have hcons (a : α) (as : List α) : Sql.commaSeparated ((a :: as).map f) =
      f a ++ as.flatMap fun a => .text ", " :: f a := by
    rw [List.map_cons, commaSeparated_cons, List.flatMap_map]
  intro as bs index r r' hr hr' he
  cases as <;> cases bs <;> simp only [hcons, before_append] at he
  case nil.nil => exact ⟨rfl, he⟩
  case nil.cons b bs => exact absurd he.symm (hf.before_ne hwords hr b index _)
  case cons.nil a as => exact absurd he (hf.before_ne hwords hr' a index _)
  case cons.cons a as b bs =>
    obtain ⟨rfl, hnext⟩ := h (follows_tail as hr) (follows_tail bs hr') he
    obtain ⟨rfl, hrest⟩ := h.tail hcomma hr hr' hnext
    exact ⟨rfl, hrest⟩

/-! ## All of the text -/

/-- What is read back where nothing follows is known by its text and parameters. -/
theorem ReadBack.rendered_eq_iff (h : ReadBack d f (Follows [])) {a b : α} :
    rendered d (f a) = rendered d (f b) ↔ a = b := by
  refine ⟨fun he => ?_, fun he => he ▸ rfl⟩
  rw [rendered, rendered, Rendered.mk.injEq] at he
  have hbefore : before d 0 (f a) ⟨[], []⟩ = before d 0 (f b) ⟨[], []⟩ := by
    rw [before_rendered, before_rendered, he.1, he.2]
  exact (h (Or.inl rfl) (Or.inl rfl) hbefore).1

end

end Keyset.Sql
