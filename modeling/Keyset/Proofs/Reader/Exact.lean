import Keyset.Proofs.Reader.Step
import Keyset.Reader.Walk
import Mathlib.Data.List.Basic

/-! # A traversal is exact

As long as a table stays the same, the call that finds rows left leaves all but
the first page of them (`Delivers.remaining_eq_drop`). So a reader cuts the rows
behind its position into pages (`Paging`, `collect_paging`), and what holds of
a listing cut into pages holds of a traversal: the rows come once, in order,
and the table is asked once for each page. -/

namespace Keyset

open SortOrder

/-- A source that keeps the requests it got. -/
def Source.logged {σ : Type} (source : Source σ) : Source (σ × List Request) :=
  fun (s, log) q => ((source s q).1, (source s q).2, log ++ [q])

/-- How many pages a listing has. There is one also if it has no rows. -/
def pageCount (rows size : Nat) : Nat := max 1 ((rows + size - 1) / size)

theorem pageCount_of_le {rows size : Nat} (h : rows ≤ size) : pageCount rows size = 1 := by
  have hlt : rows + size - 1 < 2 * size ∨ size = 0 := by omega
  rcases hlt with hlt | rfl
  · have hone : (rows + size - 1) / size < 2 := Nat.div_lt_of_lt_mul (by rwa [Nat.mul_comm])
    rw [pageCount]; omega
  · rw [pageCount, Nat.div_zero]; rfl

theorem pageCount_of_lt {rows size : Nat} (hs : 1 ≤ size) (h : size < rows) :
    pageCount rows size = pageCount (rows - size) size + 1 := by
  have hsum : rows + size - 1 = (rows - size + size - 1) + size := by omega
  have hone : 1 ≤ (rows - size + size - 1) / size := (Nat.one_le_div_iff hs).mpr (by omega)
  rw [pageCount, pageCount, hsum, Nat.add_div_right _ hs]
  omega

/-! ## A listing cut into pages -/

/-- The pages that the rows behind a position are cut into. -/
inductive Paging (size : Nat) : Option Cursor → List Row → List FetchedPage → Prop
  | last {position : Option Cursor} {rows : List Row} {page : FetchedPage} :
    rows.length ≤ size → page.rows = rows → page.position = position → page.next = none →
    page.reachedEnd = true → Paging size position rows [page]
  | more {position : Option Cursor} {rows : List Row} {page : FetchedPage}
      {pages : List FetchedPage} :
    size < rows.length → page.rows = rows.take size → page.position = position →
    page.next.isSome = true → page.reachedEnd = false →
    Paging size page.next (rows.drop size) pages → Paging size position rows (page :: pages)

namespace Paging

variable {size : Nat} {position : Option Cursor} {rows : List Row} {pages : List FetchedPage}

theorem ne_nil (h : Paging size position rows pages) : pages ≠ [] := by
  cases h <;> exact List.cons_ne_nil _ _

theorem flatMap_rows (h : Paging size position rows pages) :
    pages.flatMap (·.rows) = rows := by
  induction h with
  | last _ hrows => simp [hrows]
  | more _ hrows _ _ _ _ ih => rw [List.flatMap_cons, hrows, ih, List.take_append_drop]

theorem length_eq (hs : 1 ≤ size) (h : Paging size position rows pages) :
    pages.length = pageCount rows.length size := by
  induction h with
  | last hle => rw [pageCount_of_le hle]; rfl
  | more hlt _ _ _ _ _ ih =>
    rw [List.length_cons, ih, List.length_drop, pageCount_of_lt hs hlt]

theorem full (h : Paging size position rows pages) : ∀ page ∈ pages.dropLast,
    page.rows.length = size ∧ page.reachedEnd = false ∧ page.next.isSome = true := by
  induction h with
  | last => simp
  | more hlt hrows _ hnext hend hrest ih =>
    rw [List.dropLast_cons_of_ne_nil hrest.ne_nil]
    intro page hp
    rcases List.mem_cons.mp hp with rfl | hp
    · refine ⟨?_, hend, hnext⟩
      rw [hrows, List.length_take]
      omega
    · exact ih page hp

theorem ended (h : Paging size position rows pages) : ∀ page ∈ pages.getLast?,
    page.rows.length ≤ size ∧ page.reachedEnd = true ∧ page.next = none := by
  induction h with
  | last hle hrows _ hnext hend =>
    intro page hp
    cases hp
    exact ⟨hrows ▸ hle, hend, hnext⟩
  | more _ _ _ _ _ hrest ih =>
    intro page hp
    rw [List.getLast?_cons_of_ne_nil hrest.ne_nil] at hp
    exact ih page hp

theorem positions (h : Paging size position rows pages) :
    pages.map (·.position) = position :: pages.dropLast.map (·.next) := by
  induction h with
  | last _ _ hpos => simp [hpos]
  | more _ _ hpos _ _ hrest ih =>
    rw [List.map_cons, hpos, ih, List.dropLast_cons_of_ne_nil hrest.ne_nil, List.map_cons]

end Paging

/-! ## A reader cuts a listing -/

namespace Reader

/-- Behind a call that finds rows left are all of them but the first page. -/
theorem Delivers.remaining_eq_drop {r r' : Reader} {rows : List Row} {fetched : FetchedPage}
    (hd : r.Delivers (r.page.remaining rows) fetched r') (hr : r.page.order.Apart rows) :
    r'.page.remaining rows = (r.page.remaining rows).drop r.page.size.toNat := by
  have hasc := Page.remaining_ascending hr
  cases hlast : fetched.rows.getLast? with
  | none =>
    have hnil := List.getLast?_eq_none_iff.mp hlast
    rw [hd.stayed hnil]
    rw [hd.rows] at hnil
    obtain hs | hleft := List.take_eq_nil_iff.mp hnil
    · rw [hs, List.drop_zero]
    · rw [hleft, List.drop_nil]
  | some last =>
    have hmem : last ∈ r.page.remaining rows := by
      rw [hd.rows] at hlast
      exact List.mem_of_mem_take (List.mem_of_getLast? hlast)
    have hlast' := hlast
    rw [hd.rows] at hlast'
    have hdrop := hasc.filter_behind hlast'
    rw [Page.remaining, hd.order]
    refine sort_eq_of_ascending (List.Pairwise.drop hasc) ?_
    rw [← hdrop]
    -- what compares greater than a row left is a row left
    have hfilter : (rows.filter r.page.ahead).filter
        (fun row => r.page.order.compareRows row last = .gt) = rows.filter r'.page.ahead := by
      rw [List.filter_filter]
      refine List.filter_congr fun row _ => ?_
      rw [Bool.eq_iff_iff, (hd.moved last hlast).2 row, Bool.and_eq_true, decide_eq_true_eq]
      exact ⟨fun h => h.1, fun h => ⟨h, Page.ahead_of_greater (Page.mem_remaining.mp hmem).2 h⟩⟩
    rw [← hfilter]
    exact (sort_perm r.page.order _).filter _

/-- A reader collects the pages that the rows behind its position are cut into,
and sends a request for each. -/
theorem collect_paging {t : MemoryTable} (r : Reader) (log : List Request)
    (h : r.page.WellPlaced) (ht : t.Sound r.page.order) (he : r.isExhausted = false) :
    ∃ pages rest requests,
      Paging r.page.size.toNat r.position (r.page.remaining t.rows) pages ∧
      requests.length = pages.length ∧
      ∀ calls, pages.length ≤ calls →
        r.collect (Source.logged MemoryTable.source) calls (t, log) =
          some (.ok pages, rest, t, log ++ requests) := by
  induction hn : (r.page.remaining t.rows).length using Nat.strong_induction_on
    generalizing r log with
  | _ n ih =>
    subst hn
    obtain ⟨q, fetched, r', -, hnext, hd⟩ :=
      next_delivers (Source.logged MemoryTable.source) (t, log) h ht.complete he fun q => rfl
    have hstate : (Source.logged MemoryTable.source (t, log) q).2 = (t, log ++ [q]) := rfl
    rw [hstate] at hnext
    by_cases hlen : (r.page.remaining t.rows).length ≤ r.page.size.toNat
    · have hend : fetched.reachedEnd = true := by rw [hd.reachedEnd, decide_eq_true hlen]
      refine ⟨[fetched], r', [q], ?_, rfl, ?_⟩
      · refine Paging.last hlen ?_ hd.position ?_ hend
        · rw [hd.rows, List.take_of_length_le hlen]
        · rw [hd.next, if_neg (by omega)]
      · rintro (_ | calls) hcalls
        · cases hcalls
        · simp [collect, hnext, hend]
    · have hlt : r.page.size.toNat < (r.page.remaining t.rows).length := by omega
      have hend : fetched.reachedEnd = false := by rw [hd.reachedEnd, decide_eq_false hlen]
      have hposition : fetched.next = r'.position := by rw [hd.next, if_pos hlt]
      have hleft := hd.remaining_eq_drop ht.apart
      obtain ⟨pages, rest, requests, hpaging, hlength, hcollect⟩ := ih _ (by
          have hpos := h.size_pos
          rw [hleft, List.length_drop]; omega) r' (log ++ [q]) hd.wellPlaced
        (by rw [hd.order]; exact ht) (by rw [hd.exhausted, hend]) rfl
      rw [hleft, hd.size, ← hposition] at hpaging
      refine ⟨fetched :: pages, rest, q :: requests, ?_, by simp [hlength], ?_⟩
      · exact Paging.more hlt hd.rows hd.position (hd.next_isSome hlt) hend hpaging
      · rintro (_ | calls) hcalls
        · cases hcalls
        · have hle : pages.length ≤ calls := by simpa using hcalls
          simp [collect, hnext, hend, hcollect calls hle, Except.map]

/-- **A traversal is exact.** Let a reader start from any position that fits its
ordering, or none, on a table of complete rows of which no two compare equal.
Calling it until the end is reached succeeds. The rows of the pages are those
behind the position, once and in order. The table is asked once for each page.
Every page but the last is full and tells where the next one starts; only the
last one has reached the end. -/
theorem collect_exact (page : Page) (start : Option Cursor) (t : MemoryTable)
    (trimmed : page.order.Trimmed) (fits : ∀ c ∈ start, c.fit page.order = .ok c.size)
    (size_pos : 1 ≤ page.size.toNat) (size_lt : page.size.toNat + 1 < UInt64.size)
    (complete : ∀ row ∈ t.rows, page.order.Complete row) (apart : page.order.Apart t.rows) :
    ∃ reader pages rest requests,
      Reader.start (page.after start) = .ok reader ∧
      (∀ calls, pages.length ≤ calls →
        reader.collect (Source.logged MemoryTable.source) calls (t, []) =
          some (.ok pages, rest, t, requests)) ∧
      requests.length = pages.length ∧
      pages.length =
        pageCount (t.rows.filter (page.after start).ahead).length page.size.toNat ∧
      (pages.flatMap (·.rows)).Perm (t.rows.filter (page.after start).ahead) ∧
      page.order.Ascending (pages.flatMap (·.rows)) ∧
      (∀ p ∈ pages.dropLast,
        p.rows.length = page.size.toNat ∧ p.reachedEnd = false ∧ p.next.isSome = true) ∧
      (∀ p ∈ pages.getLast?,
        p.rows.length ≤ page.size.toNat ∧ p.reachedEnd = true ∧ p.next = none) ∧
      pages.map (·.position) = (page.after start).position :: pages.dropLast.map (·.next) := by
  have hfits : ∀ c ∈ (page.after start).position, ∃ k, c.fit page.order = .ok k :=
    fun c hc => ⟨c.size, fits c (Option.filter_eq_some_iff.mp hc).1⟩
  have h : (page.after start).WellPlaced := ⟨trimmed, hfits, size_pos, size_lt⟩
  obtain ⟨pages, rest, requests, hpaging, hlength, hcollect⟩ :=
    collect_paging ⟨page.after start, .ready, 0⟩ [] h ⟨complete, apart⟩ rfl
  have hperm : ((page.after start).remaining t.rows).Perm (t.rows.filter (page.after start).ahead) :=
    sort_perm _ _
  refine ⟨_, pages, rest, requests, start_eq_ok_iff.mpr ⟨rfl, hfits⟩, hcollect, hlength, ?_, ?_, ?_, hpaging.full,
    hpaging.ended, hpaging.positions⟩
  · rw [hpaging.length_eq size_pos, hperm.length_eq]
  · rw [hpaging.flatMap_rows]
    exact hperm
  · rw [hpaging.flatMap_rows]
    exact Page.remaining_ascending (p := page.after start) apart

/-- Behind post 2 of four, which has no score, are post 3, without one either, and
posts 4 and 1 with theirs: a full page, and one that has reached the end. -/
theorem collect_ranking : ∃ reader first last rest requests,
    Reader.start (((Page.first Post.ranking).withSize 2).after (some Post.second)) = .ok reader ∧
    reader.collect (Source.logged MemoryTable.source) 2 (Post.four, []) =
      some (.ok [first, last], rest, Post.four, requests) ∧
    requests.length = 2 ∧
    first.rows ++ last.rows =
      [Post.scored 3 none, Post.scored 4 (some 7), Post.scored 1 (some 3)] ∧
    first.rows.length = 2 ∧ first.reachedEnd = false ∧ last.reachedEnd = true ∧
    first.position = some Post.second ∧ last.position = first.next := by
  obtain ⟨reader, pages, rest, requests, hstart, hcollect, hrequests, hpages, hperm, hascending,
    hfull, hlast, hpositions⟩ :=
    collect_exact ((Page.first Post.ranking).withSize 2) (some Post.second) Post.four
      (by decide) (by decide) (by decide) (by decide) (by decide) (by decide)
  have hcount : pages.length = 2 := hpages.trans (by decide)
  obtain ⟨first, last, rfl⟩ := List.length_eq_two.mp hcount
  have hfirst := hfull first (by simp)
  have hends := hlast last (by simp)
  have hsize : ((Page.first Post.ranking).withSize 2).size.toNat = 2 := by decide
  -- the rows ahead have one ascending form, which is the expected one
  have hrows : [first, last].flatMap (·.rows) =
      [Post.scored 3 none, Post.scored 4 (some 7), Post.scored 1 (some 3)] :=
    hascending.eq_of_perm (by decide) (hperm.trans (by decide))
  have hstarts : (((Page.first Post.ranking).withSize 2).after (some Post.second)).position =
      some Post.second := rfl
  obtain ⟨hstood, hnext⟩ : first.position = some Post.second ∧ last.position = first.next := by
    simpa [hstarts] using hpositions
  exact ⟨reader, first, last, rest, requests, hstart, hcollect 2 (by omega),
    hrequests.trans hcount, by simpa using hrows, hfirst.1.trans hsize, hfirst.2.1, hends.2.1,
    hstood, hnext⟩

end Reader

end Keyset
