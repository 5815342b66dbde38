import Keyset.Proofs.Reader.Moves
import Keyset.Proofs.Reader.Step
import Keyset.Reader.Walk

/-! # What a traversal loses

A table need not keep to what its ordering says of the columns: a row may lack a
value that it must have. The sort places such a row like any other, but the
condition for the next page may pass over it. So a traversal of such a table
either fails for a row without a position, or it loses exactly the rows that
the last row of a page passes over (`collect_incomplete`). -/

namespace Keyset

open SortOrder

/-! ## Rows without a position -/

theorem Cursor.ofColumns_eq_error {row : Row} {cs : List SortColumn} {values : Dictionary Value}
    {e : CursorError} (h : ofColumns row cs values = .error e) :
    ∃ column ∈ cs, e = .missingRowValue column.name ∧ column.nullable = false ∧
      (row.value column.name).isNull = true := by
  induction cs generalizing values with
  | nil => cases h
  | cons column cs ih =>
    rw [ofColumns] at h
    split at h
    · rename_i hlacks
      cases h
      exact ⟨column, by simp, rfl, by simpa using hlacks.2, hlacks.1⟩
    · obtain ⟨d, hd, hrest⟩ := ih h
      exact ⟨d, List.mem_cons_of_mem column hd, hrest⟩

namespace Page

variable {p : Page}

/-- What a page finds is what is reached from the row that it stands behind. -/
theorem finds_after_ofRow (hn : p.order.Trimmed) {last : Row} {c : Cursor}
    (hc : Cursor.ofRow p.order last = .ok c) (row : Row) :
    (p.after (some c)).finds row = true ↔ Reaches p.order.key row.value last.value := by
  rw [finds_of_position_some (ahead_after_ofRow hn hc).1]
  show c.leading p.order.key = [] ∨ Reaches (c.leading p.order.key) row.value c.bound ↔ _
  rw [Cursor.leading_ofRow hn hc, reaches_congr fun column hm => Cursor.bound_ofRow hn hc hm]
  exact or_iff_right p.order.key_ne_nil

/-- What is reached from a row that is found is found. -/
theorem finds_of_reaches {a b : Row} (ha : p.finds a = true)
    (hb : Reaches p.order.key b.value a.value) : p.finds b = true := by
  cases hp : p.position with
  | none => exact finds_of_position_none hp b
  | some c =>
    rw [finds_of_position_some hp] at ha ⊢
    obtain ⟨rest, hrest⟩ : c.leading p.order.key <+: p.order.key := List.takeWhile_prefix c.sets
    rw [← hrest] at hb
    exact ha.imp_right hb.trans

end Page

namespace Reader

variable {t : MemoryTable} {r : Reader}

theorem Moves.wellPlaced {answered : List Row} {fetched : FetchedPage} {r' : Reader}
    (hm : r.Moves answered fetched r') (h : r.page.WellPlaced) : r'.page.WellPlaced := by
  rcases hm.page with ⟨-, hpage⟩ | ⟨last, c, -, hc, hpage⟩
  · rw [hpage]
    exact h
  · rw [hpage]
    exact h.after_ofRow hc

theorem Moves.finds_iff {answered : List Row} {fetched : FetchedPage} {r' : Reader}
    (hm : r.Moves answered fetched r') (hn : r.page.order.Trimmed) {last : Row}
    (hlast : fetched.rows.getLast? = some last) (row : Row) :
    r'.page.finds row = true ↔ Reaches r.page.order.key row.value last.value := by
  rcases hm.page with ⟨hnil, -⟩ | ⟨last', c, hlast', hc, hpage⟩
  · rw [hnil] at hlast
    cases hlast
  · rw [hlast] at hlast'
    cases hlast'
    rw [hpage]
    exact Page.finds_after_ofRow hn hc row

/-- What a call does that returns the first of the rows that its page finds. -/
structure Finds (r : Reader) (t : MemoryTable) (fetched : FetchedPage) (r' : Reader) :
    Prop where
  rows : fetched.rows = (r.page.order.sort (t.rows.filter r.page.finds)).take r.page.size.toNat
  reachedEnd : fetched.reachedEnd =
    decide ((t.rows.filter r.page.finds).length ≤ r.page.size.toNat)
  exhausted : r'.isExhausted = fetched.reachedEnd
  wellPlaced : r'.page.WellPlaced
  order : r'.page.order = r.page.order
  /-- The reader finds what is reached from the last row it got. -/
  moved : ∀ last, fetched.rows.getLast? = some last →
    ∀ row, r'.page.finds row = true ↔ Reaches r.page.order.key row.value last.value

/-- Only a last row without a value that it must have leaves no position. -/
theorem lastPosition_eq_error {o : SortOrder} {rows : List Row} {e : FetchError}
    (h : lastPosition o rows = .error e) :
    ∃ last column, rows.getLast? = some last ∧ column ∈ o.key ∧ e = .invalidRow column.name ∧
      column.nullable = false ∧ (last.value column.name).isNull = true := by
  unfold lastPosition at h
  split at h
  · cases h
  · rename_i last hlast
    cases hc : Cursor.ofRow o last with
    | ok c =>
      simp only [hc] at h
      cases h
    | error ce =>
      obtain ⟨column, hmem, rfl, hn, hnull⟩ := Cursor.ofColumns_eq_error hc
      simp only [hc] at h
      cases h
      exact ⟨last, column, hlast, hmem, rfl, hn, hnull⟩

/-- A call on a table returns the first of the rows that its page finds, unless the last of them
has no position. -/
theorem next_finds (h : r.page.WellPlaced) (he : r.isExhausted = false) (t : MemoryTable) :
    (∃ fetched r', r.next MemoryTable.source t = (.ok fetched, r', t) ∧ r.Finds t fetched r') ∨
    ∃ last column,
      ((r.page.order.sort (t.rows.filter r.page.finds)).take r.page.size.toNat).getLast? =
        some last ∧
      column ∈ r.page.order.key ∧ column.nullable = false ∧
      (last.value column.name).isNull = true ∧
      ∃ r', r.next MemoryTable.source t = (.error (.invalidRow column.name), r', t) := by
  obtain ⟨q, hq, ho, hl, hrow⟩ := r.request_finds h
  have hfetch : t.fetch q =
      (r.page.order.sort (t.rows.filter r.page.finds)).take (r.page.size.toNat + 1) := by
    rw [MemoryTable.fetch, MemoryTable.matching, List.filter_congr fun row _ => hrow row, ho, hl,
      h.limit_eq]
  have htake : (t.fetch q).take r.page.size.toNat =
      (r.page.order.sort (t.rows.filter r.page.finds)).take r.page.size.toNat := by
    rw [hfetch, List.take_take, Nat.min_eq_left (Nat.le_succ _)]
  have hnext : r.next MemoryTable.source t =
      ((Pending.settle ⟨r.dropped, r.state, q⟩ (.ok (t.fetch q))).1,
        (Pending.settle ⟨r.dropped, r.state, q⟩ (.ok (t.fetch q))).2, t) := by
    simp only [next, call_of_request he hq]
    rfl
  cases hlast : lastPosition r.page.order ((t.fetch q).take r.page.size.toNat) with
  | error e =>
    obtain ⟨last, column, hmem, hc, rfl, hn, hnull⟩ := lastPosition_eq_error hlast
    have hfails : r.dropped.take (t.fetch q) = .error (.invalidRow column.name) := by
      simp only [take, dropped, hlast, bind, Except.bind]
    refine Or.inr ⟨last, column, htake ▸ hmem, hc, hn, hnull, r, ?_⟩
    rw [hnext]
    simp only [Pending.settle, hfails]
    rfl
  | ok position =>
    have htaken := take_eq (r := r.dropped) hlast
    have hm := take_moves htaken
    refine Or.inl ⟨_, _, by rw [hnext]; simp only [Pending.settle, htaken]; rfl, ?_⟩
    exact {
      rows := hm.rows.trans htake
      reachedEnd := by
        rw [hm.reachedEnd, hfetch, List.length_take, (sort_perm _ _).length_eq]
        exact decide_eq_decide.mpr (by show min _ _ ≤ r.page.size.toNat ↔ _; omega)
      exhausted := hm.exhausted
      wellPlaced := hm.wellPlaced h
      order := hm.order
      moved := fun _ => hm.finds_iff h.trimmed }

/-! ## A whole traversal -/

/-- The pages have, in order, the rows that a page finds, but those that the last row of one of
them passes over. -/
structure Leaves (p : Page) (rows : List Row) (pages : List FetchedPage) : Prop where
  ascending : p.order.Ascending (pages.flatMap (·.rows))
  mem_iff : ∀ row, row ∈ pages.flatMap (·.rows) ↔ row ∈ rows ∧ p.finds row = true ∧
    ∀ fetched ∈ pages, ∀ last ∈ fetched.rows.getLast?, ¬ p.order.PassesOver last row

namespace Finds

variable {fetched : FetchedPage} {r' : Reader}

/-- A row of the page is one that its page finds. -/
theorem found (hd : r.Finds t fetched r') {row : Row} (hrow : row ∈ fetched.rows) :
    row ∈ t.rows ∧ r.page.finds row = true := by
  rw [hd.rows] at hrow
  exact List.mem_filter.mp (mem_sort.mp (List.mem_of_mem_take hrow))

/-- If more follows, the page has a last row. -/
theorem exists_last (hd : r.Finds t fetched r') (hs : 1 ≤ r.page.size.toNat)
    (hend : fetched.reachedEnd = false) : ∃ last, fetched.rows.getLast? = some last := by
  rw [hd.reachedEnd, decide_eq_false_iff_not, Nat.not_le] at hend
  have hne : fetched.rows ≠ [] := by
    rw [hd.rows, Ne, List.take_eq_nil_iff, not_or]
    refine ⟨Nat.one_le_iff_ne_zero.mp hs, List.ne_nil_of_length_pos ?_⟩
    rw [(sort_perm _ _).length_eq]
    omega
  exact ⟨_, List.getLast?_eq_some_getLast hne⟩

theorem mem_iff (hd : r.Finds t fetched r') (ht : r.page.order.Apart t.rows) {last : Row}
    (hlast : fetched.rows.getLast? = some last) (row : Row) :
    row ∈ fetched.rows ↔ row ∈ t.rows ∧ r.page.finds row = true ∧
      r.page.order.compareRows row last ≠ .gt := by
  have hasc : r.page.order.Ascending (r.page.order.sort (t.rows.filter r.page.finds)) :=
    (ht.filter _).sort_ascending
  rw [hd.rows] at hlast ⊢
  rw [hasc.mem_take_iff hlast, mem_sort, List.mem_filter, and_assoc]

theorem ascending (hd : r.Finds t fetched r') (ht : r.page.order.Apart t.rows) :
    r.page.order.Ascending fetched.rows := by
  rw [hd.rows]
  exact List.Pairwise.take (ht.filter _).sort_ascending

theorem leaves_last (hd : r.Finds t fetched r') (ht : r.page.order.Apart t.rows)
    (hend : fetched.reachedEnd = true) : Leaves r.page t.rows [fetched] := by
  have hall : fetched.rows = r.page.order.sort (t.rows.filter r.page.finds) := by
    rw [hd.reachedEnd, decide_eq_true_eq] at hend
    rw [hd.rows, List.take_of_length_le ((sort_perm _ _).length_eq.trans_le hend)]
  constructor
  · rw [List.flatMap_singleton]
    exact hd.ascending ht
  · intro row
    rw [List.flatMap_singleton]
    constructor
    · intro hrow
      have hfound := hrow
      rw [hall, mem_sort, List.mem_filter] at hfound
      refine ⟨hfound.1, hfound.2, fun p hp last hlast hover => ?_⟩
      rw [List.mem_singleton.mp hp] at hlast
      exact ((hd.mem_iff ht hlast row).mp hrow).2.2 hover.greater
    · intro h
      rw [hall, mem_sort, List.mem_filter]
      exact ⟨h.1, h.2.1⟩

section
variable {last : Row} {pages : List FetchedPage}

/-- The rows of the pages behind are reached from the last row. -/
theorem reached (hd : r.Finds t fetched r') (hlast : fetched.rows.getLast? = some last)
    (hrest : Leaves r'.page t.rows pages) {row : Row} (hrow : row ∈ pages.flatMap (·.rows)) :
    Reaches r.page.order.key row.value last.value :=
  (hd.moved last hlast row).mp ((hrest.mem_iff row).mp hrow).2.1

theorem below (hd : r.Finds t fetched r') (ht : r.page.order.Apart t.rows)
    (hlast : fetched.rows.getLast? = some last) (hrest : Leaves r'.page t.rows pages) :
    ∀ a ∈ fetched.rows, ∀ b ∈ pages.flatMap (·.rows), r.page.order.compareRows a b = .lt := by
  intro a ha b hb
  have hle := (hd.ascending ht).isLE_last hlast ha
  have hgt := (reaches_iff.mp (hd.reached hlast hrest hb)).1
  exact Std.TransCmp.lt_of_isLE_of_lt hle (Std.OrientedCmp.lt_of_gt hgt)

/-- A row of the page is below whatever would pass over it. -/
theorem kept (hd : r.Finds t fetched r') (ht : r.page.order.Apart t.rows)
    (hlast : fetched.rows.getLast? = some last) (hrest : Leaves r'.page t.rows pages) {row : Row}
    (hrow : row ∈ fetched.rows) : ∀ p ∈ fetched :: pages, ∀ last' ∈ p.rows.getLast?,
      ¬ r.page.order.PassesOver last' row := by
  refine List.forall_mem_cons.mpr ⟨fun last' hlast' hover => ?_, fun p hp last' hlast' hover => ?_⟩
  · exact ((hd.mem_iff ht hlast' row).mp hrow).2.2 hover.greater
  · have hlt := hd.below ht hlast hrest row hrow last'
      (List.mem_flatMap.mpr ⟨p, hp, List.mem_of_getLast? hlast'⟩)
    rw [hover.greater] at hlt
    cases hlt

theorem leaves_cons (hd : r.Finds t fetched r') (ht : r.page.order.Apart t.rows)
    (hlast : fetched.rows.getLast? = some last) (hrest : Leaves r'.page t.rows pages) :
    Leaves r.page t.rows (fetched :: pages) := by
  have hmem := hd.mem_iff ht hlast
  have hfound := (hd.found (List.mem_of_getLast? hlast)).2
  have hrestAscending := hrest.ascending
  have hrestMem := hrest.mem_iff
  rw [hd.order] at hrestAscending hrestMem
  refine ⟨?_, fun row => ?_⟩
  · rw [List.flatMap_cons]
    exact List.pairwise_append.mpr
      ⟨hd.ascending ht, hrestAscending, hd.below ht hlast hrest⟩
  · rw [List.flatMap_cons, List.mem_append]
    constructor
    · rintro (hrow | hrow)
      · obtain ⟨hstored, hfinds, -⟩ := (hmem row).mp hrow
        exact ⟨hstored, hfinds, hd.kept ht hlast hrest hrow⟩
      · obtain ⟨hstored, -, hafter⟩ := (hrestMem row).mp hrow
        have hreached := hd.reached hlast hrest hrow
        refine ⟨hstored, Page.finds_of_reaches hfound hreached,
          List.forall_mem_cons.mpr ⟨fun last' hlast' => ?_, hafter⟩⟩
        rw [hlast] at hlast'
        cases hlast'
        exact (reaches_iff.mp hreached).2
    · rintro ⟨hstored, hfinds, hkept⟩
      obtain ⟨hlastKept, hafter⟩ := List.forall_mem_cons.mp hkept
      by_cases hgt : r.page.order.compareRows row last = .gt
      · have hreach := reaches_iff.mpr ⟨hgt, hlastKept last hlast⟩
        exact Or.inr ((hrestMem row).mpr ⟨hstored, (hd.moved last hlast row).mpr hreach, hafter⟩)
      · exact Or.inl ((hmem row).mpr ⟨hstored, hfinds, hgt⟩)

end

/-- Behind its last row a page finds less. -/
theorem length_lt (hd : r.Finds t fetched r') {last : Row}
    (hlast : fetched.rows.getLast? = some last) :
    (t.rows.filter r'.page.finds).length < (t.rows.filter r.page.finds).length := by
  have hfound := hd.found (List.mem_of_getLast? hlast)
  have hsome : t.rows.filter r'.page.finds = (t.rows.filter r.page.finds).filter r'.page.finds := by
    rw [List.filter_filter]
    refine List.filter_congr fun row _ => ?_
    rw [Bool.eq_iff_iff, Bool.and_eq_true]
    refine ⟨fun h => ⟨h, ?_⟩, fun h => h.1⟩
    exact Page.finds_of_reaches hfound.2 ((hd.moved last hlast row).mp h)
  rw [hsome]
  refine List.length_filter_lt_length_iff_exists.mpr ⟨last, List.mem_filter.mpr hfound, fun h => ?_⟩
  -- no row comes behind itself
  have hgt := (reaches_iff.mp ((hd.moved last hlast last).mp h)).1
  have hself : r.page.order.compareRows last last = .eq := Std.ReflCmp.compare_self
  rw [hself] at hgt
  cases hgt

end Finds

/-- What becomes of a traversal from a page on. -/
def Ends (p : Page) (t : MemoryTable) (result : Except FetchError (List FetchedPage)) : Prop :=
  (∃ column ∈ p.order.key, result = .error (.invalidRow column.name) ∧ column.nullable = false ∧
    ∃ row ∈ t.rows, (row.value column.name).isNull = true) ∨
  ∃ pages, result = .ok pages ∧ Leaves p t.rows pages

/-- A reader that is called until the end is reached fails for a row that lacks a value, or leaves
out the rows that are passed over. -/
theorem collect_ends (r : Reader) (h : r.page.WellPlaced) (ht : r.page.order.Apart t.rows)
    (he : r.isExhausted = false) : ∃ result rest enough, Ends r.page t result ∧
      ∀ calls, enough ≤ calls → r.collect MemoryTable.source calls t = some (result, rest, t) := by
  -- every page but the last has a row, and what is found behind that is less
  induction hcount : (t.rows.filter r.page.finds).length using Nat.strong_induction_on
    generalizing r with
  | _ n ih =>
    subst hcount
    rcases next_finds h he t with ⟨fetched, r', hnext, hd⟩ |
      ⟨last, column, hlast, hc, hn, hnull, r', hnext⟩
    · cases hend : fetched.reachedEnd with
      | true =>
        refine ⟨.ok [fetched], r', 1, Or.inr ⟨_, rfl, hd.leaves_last ht hend⟩, ?_⟩
        rintro (_ | calls) hcalls
        · cases hcalls
        · simp [collect, hnext, hend]
      | false =>
        obtain ⟨last, hlast⟩ := hd.exists_last h.size_pos hend
        obtain ⟨result, rest, enough, hresult, hcollect⟩ := ih _ (hd.length_lt hlast) r'
          hd.wellPlaced (hd.order ▸ ht) (by rw [hd.exhausted, hend]) rfl
        refine ⟨result.map (fetched :: ·), rest, enough + 1, ?_, ?_⟩
        · rcases hresult with ⟨column, hc, rfl, hlack⟩ | ⟨pages, rfl, hrest⟩
          · rw [hd.order] at hc
            exact Or.inl ⟨column, hc, rfl, hlack⟩
          · exact Or.inr ⟨_, rfl, hd.leaves_cons ht hlast hrest⟩
        · rintro (_ | calls) hcalls
          · cases hcalls
          · simp [collect, hnext, hend, hcollect calls (Nat.le_of_succ_le_succ hcalls)]
    · have hstored : last ∈ t.rows :=
        (List.mem_filter.mp (mem_sort.mp (List.mem_of_mem_take (List.mem_of_getLast? hlast)))).1
      refine ⟨.error (.invalidRow column.name), r', 1,
        Or.inl ⟨column, hc, rfl, hn, last, hstored, hnull⟩, ?_⟩
      rintro (_ | calls) hcalls
      · cases hcalls
      · simp [collect, hnext]

/-- **What a traversal loses.** Let a table be walked from the first page on until the end is
reached; no two rows of it compare equal, but they may lack values. Either the walk fails for the
want of a value that a stored row must have. Or its pages have the rows in order, each once, but
for those that the last row of a page passes over. Complete rows are never among these, and no row
is if null goes first wherever it is not allowed. -/
theorem collect_incomplete (page : Page) (t : MemoryTable) (trimmed : page.order.Trimmed)
    (first : page.position = none) (sized : page.Sized) (apart : page.order.Apart t.rows) :
    ∃ reader result rest enough, Reader.start page = .ok reader ∧
      (∀ calls, enough ≤ calls →
        reader.collect MemoryTable.source calls t = some (result, rest, t)) ∧
      ((∃ column ∈ page.order.key, result = .error (.invalidRow column.name) ∧
          column.nullable = false ∧ ∃ row ∈ t.rows, (row.value column.name).isNull = true) ∨
        ∃ pages, result = .ok pages ∧ page.order.Ascending (pages.flatMap (·.rows)) ∧
          (∀ row, row ∈ pages.flatMap (·.rows) ↔ row ∈ t.rows ∧
            ∀ fetched ∈ pages, ∀ last ∈ fetched.rows.getLast?, ¬ page.order.PassesOver last row) ∧
          (∀ row ∈ t.rows, page.order.Complete row → row ∈ pages.flatMap (·.rows)) ∧
          ((∀ column ∈ page.order.key, column.nullable = false → column.nullPlace = .first) →
            (pages.flatMap (·.rows)).Perm t.rows)) := by
  have h : page.WellPlaced := sized.wellPlaced trimmed first
  obtain ⟨result, rest, enough, hends, hcollect⟩ :=
    collect_ends (t := t) ⟨page, .ready, 0⟩ h apart rfl
  refine ⟨_, result, rest, enough, start_eq_ok_iff.mpr ⟨rfl, h.fits⟩, hcollect,
    hends.imp_right ?_⟩
  rintro ⟨pages, hpages, hleaves⟩
  have hmem : ∀ row, row ∈ pages.flatMap (·.rows) ↔ row ∈ t.rows ∧
      ∀ fetched ∈ pages, ∀ last ∈ fetched.rows.getLast?, ¬ page.order.PassesOver last row := by
    intro row
    rw [hleaves.mem_iff, and_iff_right (Page.finds_of_position_none first row)]
  refine ⟨pages, hpages, hleaves.ascending, hmem, fun row hrow hcomplete => ?_, fun hplace => ?_⟩
  · exact (hmem row).mpr ⟨hrow, fun _ _ last _ => hcomplete.not_passesOver last⟩
  · refine (List.perm_ext_iff_of_nodup hleaves.ascending.nodup apart.nodup).mpr fun row => ?_
    rw [hmem]
    exact and_iff_left fun _ _ last _ => not_passesOver_of_first hplace last row

end Reader

/-- Posts by their score, the lowest first, which they must have. -/
def Post.byScore : SortOrder :=
  ⟨[⟨"score", .ascending, false, false, none⟩, ⟨"id", .ascending, false, true, none⟩], by decide⟩

/-- Three posts, the last of them without a score. -/
def Post.unscored : MemoryTable :=
  ⟨"posts", [scored 1 (some 1), scored 2 (some 2), scored 3 none]⟩

namespace Reader

/-- Walking the three posts by two succeeds with the ones that have scores, whatever number of calls
is allowed from two on: the first call returns both, the second no rows. -/
theorem collect_byScore (calls : Nat) : ∃ pages rest,
    collect MemoryTable.source (calls + 2) ⟨(Page.first Post.byScore).withSize 2, .ready, 0⟩
      Post.unscored = some (.ok pages, rest, Post.unscored) ∧
    pages.flatMap (·.rows) = [Post.scored 1 (some 1), Post.scored 2 (some 2)] := by
  have hplaced : ((Page.first Post.byScore).withSize 2).WellPlaced :=
    Page.Sized.wellPlaced (by decide) (by decide) rfl
  have hfilter : Post.unscored.rows.filter ((Page.first Post.byScore).withSize 2).finds =
      Post.unscored.rows := by decide
  have hsort : Post.byScore.sort Post.unscored.rows = Post.unscored.rows :=
    sort_eq_of_ascending (by decide) (List.Perm.refl _)
  have hleft : (Post.byScore.sort (Post.unscored.rows.filter
      ((Page.first Post.byScore).withSize 2).finds)).take
        ((Page.first Post.byScore).withSize 2).size.toNat =
      [Post.scored 1 (some 1), Post.scored 2 (some 2)] := by
    rw [hfilter, hsort]
    decide
  rcases next_finds (r := ⟨(Page.first Post.byScore).withSize 2, .ready, 0⟩) hplaced rfl
    Post.unscored with ⟨page, r₁, hnext, hd⟩ | ⟨last, column, hlast, hc, hn, hnull, -⟩
  · have hrows := hd.rows.trans hleft
    have hmore : page.reachedEnd = false := hd.reachedEnd.trans (by decide)
    -- the row without a score is behind the last one, but not reached from it
    have hnone : Post.unscored.rows.filter r₁.page.finds = [] := by
      refine List.filter_eq_nil_iff.mpr fun row hrow hfound => ?_
      have hlost : ∀ row ∈ Post.unscored.rows,
          ¬ Reaches Post.byScore.key row.value (Post.scored 2 (some 2)).value := by decide
      exact hlost row hrow ((hd.moved _ (by rw [hrows]; rfl) row).mp hfound)
    have hsortNone : r₁.page.order.sort [] = [] := (sort_perm _ _).eq_nil
    rcases next_finds hd.wellPlaced (hd.exhausted.trans hmore) Post.unscored with
      ⟨empty, r₂, hnext', hd'⟩ | ⟨last, -, hlast, -⟩
    · have hempty : empty.rows = [] := by
        rw [hd'.rows, hnone, hsortNone, List.take_nil]
      have hend : empty.reachedEnd = true := by
        rw [hd'.reachedEnd, hnone]
        exact decide_eq_true (Nat.zero_le _)
      refine ⟨[page, empty], r₂, ?_, ?_⟩
      · simp [collect, hnext, hmore, hnext', hend, Except.map]
      · simp only [List.flatMap_cons, List.flatMap_nil, hrows, hempty, List.append_nil]
    · rw [hnone, hsortNone, List.take_nil] at hlast
      cases hlast
  · -- the first page ends with a complete row
    have hcomplete : Post.byScore.Complete (Post.scored 2 (some 2)) := by decide
    have hlast' := (congrArg List.getLast? hleft).symm.trans hlast
    cases hlast'
    exact absurd ((hcomplete column hc hn).symm.trans hnull) Bool.false_ne_true

/-- The walk gives the two posts that have scores, and the last row of a page passes over the third
post. -/
theorem collect_unscored : ∃ reader pages rest calls,
    Reader.start ((Page.first Post.byScore).withSize 2) = .ok reader ∧
    reader.collect MemoryTable.source calls Post.unscored = some (.ok pages, rest, Post.unscored) ∧
    pages.flatMap (·.rows) = [Post.scored 1 (some 1), Post.scored 2 (some 2)] ∧
    ∃ fetched ∈ pages, ∃ last ∈ fetched.rows.getLast?,
      Post.byScore.PassesOver last (Post.scored 3 none) := by
  obtain ⟨reader, result, rest, enough, hstart, hcollect, hends⟩ :=
    collect_incomplete ((Page.first Post.byScore).withSize 2) Post.unscored (by decide) rfl
      (by decide) (by decide)
  obtain ⟨pages, rest', hwalk, hrows⟩ := collect_byScore enough
  obtain ⟨rfl, -⟩ := start_eq_ok_iff.mp hstart
  -- both are the outcome of the same calls
  cases hwalk.symm.trans (hcollect (enough + 2) (by omega))
  rcases hends with ⟨column, -, herror, -⟩ | ⟨pages', hpages, -, hfound, -⟩
  · cases herror
  · cases hpages
    refine ⟨_, pages, rest, enough + 2, hstart, hwalk, hrows, ?_⟩
    have hlost : Post.scored 3 none ∉ pages.flatMap (·.rows) := by
      rw [hrows]
      decide
    -- the third post is stored, so there is no other reason for it not to be returned
    by_contra hnone
    exact hlost ((hfound _).mpr ⟨by decide, fun fetched hfetched row hrow hpasses =>
      hnone ⟨fetched, hfetched, row, hrow, hpasses⟩⟩)

/-- Walking the three posts by two succeeds and loses the third. -/
theorem collect_loses_unscored : ∃ reader pages rest,
    Reader.start ((Page.first Post.byScore).withSize 2) = .ok reader ∧
    reader.collect MemoryTable.source 2 Post.unscored = some (.ok pages, rest, Post.unscored) ∧
    Post.scored 3 none ∈ Post.unscored.rows ∧ Post.scored 3 none ∉ pages.flatMap (·.rows) := by
  have hplaced : ((Page.first Post.byScore).withSize 2).WellPlaced :=
    Page.Sized.wellPlaced (by decide) (by decide) rfl
  obtain ⟨pages, rest, hwalk, hrows⟩ := collect_byScore 0
  refine ⟨_, pages, rest, start_eq_ok_iff.mpr ⟨rfl, hplaced.fits⟩, hwalk, by decide, ?_⟩
  rw [hrows]
  decide

end Reader

end Keyset
