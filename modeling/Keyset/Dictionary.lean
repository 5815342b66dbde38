/-!
# Dictionaries

Values under names, in the order of the names. Each name occurs once; a later entry for a name
replaces the earlier one. Main statements: `find?_insert` says what an insertion changes, and
`find?_eq_some_iff` that what is found under a name is its entry.
-/
namespace Keyset

/-- Entries in strictly ascending order of names. -/
structure Dictionary (α : Type) where
  entries : List (String × α)
  ascending : entries.Pairwise fun a b => compare a.1 b.1 = .lt

namespace Dictionary

variable {α : Type}

theorem ext_entries {d e : Dictionary α} (h : d.entries = e.entries) : d = e := by
  cases d; cases e; simp_all

instance [DecidableEq α] : DecidableEq (Dictionary α) := fun d e =>
  if h : d.entries = e.entries then isTrue (ext_entries h)
  else isFalse (fun he => h (congrArg entries he))

def empty : Dictionary α := ⟨[], .nil⟩

def size (d : Dictionary α) : Nat := d.entries.length

def isEmpty (d : Dictionary α) : Bool := d.entries.isEmpty

def names (d : Dictionary α) : List String := d.entries.map (·.1)

def find? (d : Dictionary α) (name : String) : Option α :=
  (d.entries.find? (·.1 = name)).map (·.2)

def put (name : String) (a : α) : List (String × α) → List (String × α)
  | [] => [(name, a)]
  | e :: es =>
    match compare name e.1 with
    | .lt => (name, a) :: e :: es
    | .eq => (name, a) :: es
    | .gt => e :: put name a es

theorem mem_put {name : String} {a : α} {es : List (String × α)} {e : String × α}
    (h : e ∈ put name a es) : e = (name, a) ∨ e ∈ es := by
  induction es with
  | nil => simp_all [put]
  | cons x xs ih =>
    simp only [put] at h
    split at h <;> simp only [List.mem_cons] at h ⊢ <;> grind

theorem pairwise_put {name : String} {a : α} {es : List (String × α)}
    (h : es.Pairwise fun a b => compare a.1 b.1 = .lt) :
    (put name a es).Pairwise fun a b => compare a.1 b.1 = .lt := by
  induction es with
  | nil => simp [put]
  | cons x xs ih =>
    obtain ⟨hx, hxs⟩ := List.pairwise_cons.1 h
    simp only [put]
    split
    · next hc =>
      refine List.pairwise_cons.2 ⟨fun y hy => ?_, h⟩
      rcases List.mem_cons.1 hy with rfl | hy
      · exact hc
      · exact Std.TransCmp.lt_trans hc (hx y hy)
    · next hc =>
      have he : name = x.1 := Std.LawfulEqCmp.eq_of_compare hc
      exact List.pairwise_cons.2 ⟨fun y hy => he ▸ hx y hy, hxs⟩
    · next hc =>
      refine List.pairwise_cons.2 ⟨fun y hy => ?_, ih hxs⟩
      rcases mem_put hy with rfl | hy
      · exact Std.OrientedCmp.lt_of_gt hc
      · exact hx y hy

def insert (d : Dictionary α) (name : String) (a : α) : Dictionary α :=
  ⟨put name a d.entries, pairwise_put d.ascending⟩

/-- The entries in turn, so that the last one of a name stays. -/
def ofList (es : List (String × α)) : Dictionary α :=
  es.foldl (fun d e => d.insert e.1 e.2) empty

theorem find?_insert (d : Dictionary α) (name n : String) (a : α) :
    (d.insert name a).find? n = if n = name then some a else d.find? n := by
  obtain ⟨es, h⟩ := d
  simp only [find?, insert]
  clear h
  induction es with
  | nil => by_cases hn : name = n <;> simp [put, hn, eq_comm]
  | cons x xs ih =>
    simp only [put]
    split
    · by_cases hn : name = n
      · simp [hn]
      · simp [hn, Ne.symm hn]
    · next hc =>
      have hx : name = x.1 := Std.LawfulEqCmp.eq_of_compare hc
      by_cases hn : name = n
      · simp [hn]
      · simp [hn, Ne.symm hn, ← hx]
    · next hc =>
      by_cases hx : x.1 = n
      · have : n ≠ name := by
          rintro rfl
          rw [hx, Std.compare_self] at hc
          cases hc
        simp [hx, this]
      · simp only [List.find?_cons, hx, decide_false, ih]

theorem find?_eq_some_iff {d : Dictionary α} {n : String} {a : α} :
    d.find? n = some a ↔ (n, a) ∈ d.entries := by
  constructor
  · intro h
    obtain ⟨e, he, rfl⟩ := Option.map_eq_some_iff.1 h
    have hn : e.1 = n := by simpa using List.find?_some he
    exact hn ▸ List.mem_of_find?_eq_some he
  · obtain ⟨es, hs⟩ := d
    simp only [find?]
    intro h
    induction es with
    | nil => simp at h
    | cons x xs ih =>
      obtain ⟨hx, hxs⟩ := List.pairwise_cons.1 hs
      rcases List.mem_cons.1 h with rfl | h
      · simp
      · have hne : x.1 ≠ n := by
          intro he
          have := hx _ h
          rw [he, Std.compare_self] at this
          cases this
        simpa [List.find?_cons, hne] using ih hxs h

end Dictionary

end Keyset
