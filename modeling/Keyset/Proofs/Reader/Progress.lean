import Keyset.Json.Scan
import Keyset.Page.Fetched
import Keyset.Proofs.Reader.Loss
import Mathlib.Data.UInt

/-! # Progress

A page that says more follows has a row if it may have one, and its reader then
stands strictly behind where it stood (`next_behind`). What the condition of the
page finds in a table thus becomes less with each call, and a traversal comes to
an end, whatever the rows are like (`collect_some`). All of this needs a page to
have room for a row. Policies that are made have it (`SizePolicy.one_le_clamp`); a
policy that was read may have none, and then the reader stays where it is
(`collect_stuck`). -/

namespace Keyset

open SortOrder

/-! ## Sizes -/

namespace SizePolicy

/-- A policy leaves no room for a row exactly if the number it goes by is zero. -/
theorem clamp_eq_zero_iff (p : SizePolicy) (requested : Int64) :
    p.clamp requested = 0 ↔ if requested ≤ 0 then p.default = 0 else p.maximum = 0 := by
  unfold clamp
  split
  · exact Iff.rfl
  · rename_i hpos
    have hasked : 1 ≤ requested.toUInt64.toNat := by
      have hlt : 0 < requested.toInt := Int64.lt_iff_toInt_lt.mp (Int64.not_le.mp hpos)
      rw [Int64.toNat_toUInt64_of_le (Int64.le_of_lt (Int64.not_le.mp hpos)), Int64.toNatClampNeg]
      omega
    rw [← UInt64.toNat_inj, ← UInt64.toNat_inj, UInt64.toNat_min, UInt64.toNat_zero]
    omega

theorem one_le_clamp (default maximum : UInt64) (requested : Int64) :
    1 ≤ ((of default maximum).clamp requested).toNat := by
  refine Nat.one_le_iff_ne_zero.mpr fun hzero => ?_
  have h := (clamp_eq_zero_iff _ requested).mp (UInt64.toNat_inj.mp hzero)
  split at h
  · have hdefault := congrArg UInt64.toNat h
    rw [of, UInt64.toNat_min, UInt64.toNat_max, UInt64.toNat_max, UInt64.toNat_one,
      UInt64.toNat_zero] at hdefault
    omega
  · have hmaximum := congrArg UInt64.toNat h
    rw [of, UInt64.toNat_max, UInt64.toNat_one, UInt64.toNat_zero] at hmaximum
    omega

end SizePolicy

/-- The position lies strictly behind another: on the first key column that the other one sets and
they differ on, its value comes later. Any position lies behind one that sets no key column. -/
def Cursor.Behind (o : SortOrder) (c d : Cursor) : Prop :=
  d.leading o.key = [] ∨ lexicographic (d.leading o.key) c.bound d.bound = .gt

/-- What a page finds lies behind its position. -/
theorem Page.behind_of_finds {p : Page} {row : Row} {c : Cursor} (hn : p.order.Trimmed)
    (hc : Cursor.ofRow p.order row = .ok c) (hrow : p.finds row = true) :
    ∀ d ∈ p.position, c.Behind p.order d := by
  intro d hd
  refine ((finds_of_position_some hd row).mp hrow).imp_right fun hreaches => ?_
  have hsame : lexicographic (d.leading p.order.key) c.bound d.bound =
      lexicographic (d.leading p.order.key) row.value d.bound :=
    lexicographic_congr_left fun column hm =>
      Cursor.bound_ofRow hn hc (List.takeWhile_prefix d.sets |>.subset hm)
  exact hsame.trans hreaches.1

namespace Reader

variable {r : Reader} {t : MemoryTable}

/-- Only a position that fits gives a request. -/
theorem wellPlaced_of_request {q : Request} (h : r.request = .ok q) (hn : r.page.order.Trimmed)
    (size_pos : 1 ≤ r.page.size.toNat) (size_lt : r.page.size.toNat + 1 < UInt64.size) :
    r.page.WellPlaced where
  trimmed := hn
  fits := by
    intro c hc
    have hposition : r.page.position = some c := hc
    cases hfit : c.fit r.page.order with
    | ok k => exact ⟨k, rfl⟩
    | error e =>
      simp only [request, Page.lowerBound, hposition, Cursor.lowerBound, hfit, bind,
        Except.bind] at h
      cases h
  size_pos := size_pos
  size_lt := size_lt

/-! ## Pages with room for a row -/

/-- A page that says more follows has a row, and the reader stands behind where it stood. -/
theorem next_behind (hn : r.page.order.Trimmed) (size_pos : 1 ≤ r.page.size.toNat)
    (size_lt : r.page.size.toNat + 1 < UInt64.size) {fetched : FetchedPage} {r' : Reader}
    {t' : MemoryTable} (h : r.next MemoryTable.source t = (.ok fetched, r', t'))
    (hend : fetched.reachedEnd = false) :
    fetched.rows ≠ [] ∧ ∃ c, r'.position = some c ∧ c.fit r.page.order = .ok r.page.order.key.length ∧
      ∀ d ∈ r.position, c.Behind r.page.order d := by
  rcases next_cases h with ⟨-, rfl, -, -⟩ | ⟨q, answered, he, hq, -, hm⟩
  · cases hend
  · have hplaced := wellPlaced_of_request hq hn size_pos size_lt
    rcases next_finds hplaced he t with ⟨_, _, hnext, hd⟩ | ⟨-, _, -, -, -, -, _, hnext⟩
    · rw [hnext] at h
      cases h
      obtain ⟨last, hlast⟩ := hd.exists_last size_pos hend
      rcases hm.page with ⟨hnil, -⟩ | ⟨last', c, hlast', hc, hpage⟩
      · rw [hnil] at hlast
        cases hlast
      · refine ⟨List.ne_nil_of_mem (List.mem_of_getLast? hlast'), c, ?_, Cursor.fit_ofRow hn hc, ?_⟩
        · rw [position, hpage]
          exact (Page.ahead_after_ofRow hn hc).1
        · exact Page.behind_of_finds hn hc (hd.found (List.mem_of_getLast? hlast')).2
    · rw [hnext] at h
      cases h

/-- A traversal needs no more calls than its page finds rows, and one more. -/
theorem collect_some (calls : Nat) (hn : r.page.order.Trimmed)
    (size_pos : 1 ≤ r.page.size.toNat) (size_lt : r.page.size.toNat + 1 < UInt64.size)
    (hcalls : (t.rows.filter r.page.finds).length < calls) :
    ∃ result, r.collect MemoryTable.source calls t = some result := by
  induction calls generalizing r with
  | zero => cases hcalls
  | succ calls ih =>
    cases he : r.isExhausted with
    | true =>
      refine ⟨(.ok [.exhausted r.position], r, t), ?_⟩
      simp [collect, next_of_exhausted he, FetchedPage.exhausted]
    | false =>
      cases hq : r.request with
      | error e => exact ⟨(.error (.cursor e), r, t), by simp [collect, next_of_error he hq]⟩
      | ok q =>
        have hplaced := wellPlaced_of_request hq hn size_pos size_lt
        rcases next_finds hplaced he t with ⟨fetched, r', hnext, hd⟩ |
          ⟨-, column, -, -, -, -, r', hnext⟩
        · cases hend : fetched.reachedEnd with
          | true => exact ⟨(.ok [fetched], r', t), by simp [collect, hnext, hend]⟩
          | false =>
            obtain ⟨last, hlast⟩ := hd.exists_last size_pos hend
            have hlt := hd.length_lt hlast
            obtain ⟨⟨result, rest, t'⟩, hcollect⟩ := ih hd.wellPlaced.trimmed
              hd.wellPlaced.size_pos hd.wellPlaced.size_lt (by omega)
            exact ⟨(result.map (fetched :: ·), rest, t'), by simp [collect, hnext, hend, hcollect]⟩
        · exact ⟨(.error (.invalidRow column.name), r', t), by simp only [collect, hnext]⟩

/-! ## Pages without room for a row -/

/-- A page that keeps no row of the answer is empty, and leaves the reader where it is. -/
theorem next_of_none_kept {q : Request} (he : r.isExhausted = false) (hq : r.request = .ok q)
    (hnone : (t.fetch q).take r.page.size.toNat = []) :
    ∃ fetched r', r.next MemoryTable.source t = (.ok fetched, r', t) ∧ fetched.rows = [] ∧
      fetched.reachedEnd = decide ((t.fetch q).length ≤ r.page.size.toNat) ∧ r'.page = r.page ∧
      r'.isExhausted = fetched.reachedEnd := by
  have hlast : lastPosition r.dropped.page.order ((t.fetch q).take r.dropped.page.size.toNat) =
      .ok none := by
    rw [show r.dropped.page = r.page from rfl, hnone]
    rfl
  obtain ⟨fetched, r', htake⟩ : ∃ fetched r', r.dropped.take (t.fetch q) = .ok (fetched, r') :=
    ⟨_, _, take_eq hlast⟩
  have hm := take_moves htake
  have hrows : fetched.rows = [] := hm.rows.trans hnone
  have hpage : r'.page = r.page := by
    rcases hm.page with ⟨-, hpage⟩ | ⟨last, c, hlast, -⟩
    · exact hpage
    · rw [hrows] at hlast
      cases hlast
  refine ⟨fetched, r', (next_of_request he hq).trans ?_, hrows, hm.reachedEnd, hpage, hm.exhausted⟩
  simp only [Pending.settle, MemoryTable.source, htake]

/-- A page without room for a row is empty, and leaves the reader where it is. That there is a row
to answer with makes it say that more follows. -/
theorem next_of_no_room {q : Request} (hs : r.page.size = 0) (he : r.isExhausted = false)
    (hq : r.request = .ok q) (hne : t.fetch q ≠ []) :
    ∃ fetched r', r.next MemoryTable.source t = (.ok fetched, r', t) ∧ fetched.rows = [] ∧
      fetched.reachedEnd = false ∧ r'.page = r.page ∧ r'.isExhausted = false := by
  have hzero : r.page.size.toNat = 0 := congrArg UInt64.toNat hs
  obtain ⟨fetched, r', hnext, hrows, hreached, hpage, hexhausted⟩ :=
    next_of_none_kept he hq (by rw [hzero, List.take_zero])
  have hend : fetched.reachedEnd = false := by
    rw [hreached, hzero]
    exact decide_eq_false (Nat.not_le.mpr (List.length_pos_iff.mpr hne))
  exact ⟨fetched, r', hnext, hrows, hend, hpage, hexhausted.trans hend⟩

/-- Such a reader never comes to an end. -/
theorem collect_stuck (calls : Nat) {q : Request} (hs : r.page.size = 0)
    (he : r.isExhausted = false) (hq : r.request = .ok q) (hne : t.fetch q ≠ []) :
    r.collect MemoryTable.source calls t = none := by
  induction calls generalizing r with
  | zero => rfl
  | succ calls ih =>
    obtain ⟨fetched, r', hnext, -, hend, hpage, he'⟩ := next_of_no_room hs he hq hne
    have hq' : r'.request = .ok q := by
      rw [request, hpage]
      exact hq
    simp [collect, hnext, hend, ih (hpage ▸ hs) he' hq']

/-- **Progress.** Let the names of the columns be trimmed, and let there be a number for one row
more than a page may have. If a page may have a row, as it may under any policy that was made, a
call that says more follows returns rows and moves the reader to a position strictly behind the
one before; so a table of whatever rows is walked to the end, or to an error, with no more calls
than it has rows, and one more. If a page may have no row, a call that says more follows leaves
the reader at its place, and no number of calls walks the table to the end. -/
theorem progress (r : Reader) (t : MemoryTable) (trimmed : r.page.order.Trimmed)
    (size_lt : r.page.size.toNat + 1 < UInt64.size) :
    ((∃ default maximum, r.page.policy = .of default maximum) → 1 ≤ r.page.size.toNat) ∧
    (1 ≤ r.page.size.toNat →
      ∃ result, r.collect MemoryTable.source (t.rows.length + 1) t = some result) ∧
    ∀ fetched r' t', r.next MemoryTable.source t = (.ok fetched, r', t') →
      fetched.reachedEnd = false →
      (1 ≤ r.page.size.toNat → fetched.rows ≠ [] ∧ ∃ c, r'.position = some c ∧
        c.fit r.page.order = .ok r.page.order.key.length ∧
        ∀ d ∈ r.position, c.Behind r.page.order d) ∧
      (r.page.size = 0 → fetched.rows = [] ∧ r'.page = r.page ∧
        ∀ calls, r.collect MemoryTable.source calls t = none) := by
  refine ⟨?_, fun size_pos => ?_, fun fetched r' t' hnext hend =>
    ⟨fun size_pos => next_behind trimmed size_pos size_lt hnext hend, fun hs => ?_⟩⟩
  · rintro ⟨default, maximum, hpolicy⟩
    rw [Page.size, hpolicy]
    exact SizePolicy.one_le_clamp default maximum _
  · exact collect_some _ trimmed size_pos size_lt
      (Nat.lt_succ_of_le (List.length_filter_le _ _))
  · rcases next_cases hnext with ⟨-, rfl, -, -⟩ | ⟨q, answered, he, hq, hanswer, hm⟩
    · cases hend
    · have hfetch : t.fetch q = answered := Except.ok.inj (congrArg Prod.fst hanswer)
      have hne : t.fetch q ≠ [] := by
        rintro hnil
        rw [hm.reachedEnd, ← hfetch, hnil] at hend
        cases hend
      have hstuck := fun calls => collect_stuck calls hs he hq hne
      obtain ⟨fetched', r'', hnext', hrows, -, hpage, -⟩ := next_of_no_room hs he hq hne
      rw [hnext'] at hnext
      cases hnext
      exact ⟨hrows, hpage, hstuck⟩

/-- Four posts are walked by two: the first page has rows, and the walk ends. -/
theorem progress_ranking : ∃ fetched r',
    next MemoryTable.source ⟨(Page.first Post.ranking).withSize 2, .ready, 0⟩ Post.four =
      (.ok fetched, r', Post.four) ∧
    fetched.reachedEnd = false ∧ fetched.rows ≠ [] ∧ r'.position.isSome = true ∧
    ∃ result, collect MemoryTable.source 5 ⟨(Page.first Post.ranking).withSize 2, .ready, 0⟩
      Post.four = some result := by
  obtain ⟨hmade, hends, hcall⟩ :=
    progress ⟨(Page.first Post.ranking).withSize 2, .ready, 0⟩ Post.four (by decide) (by decide)
  have size_pos := hmade ⟨20, 100, rfl⟩
  have hplaced : ((Page.first Post.ranking).withSize 2).WellPlaced :=
    Page.Sized.wellPlaced (by decide) (by decide) rfl
  obtain ⟨_, fetched, r', -, hnext, hd⟩ :=
    next_delivers (r := ⟨(Page.first Post.ranking).withSize 2, .ready, 0⟩) MemoryTable.source
      Post.four hplaced (by decide) rfl fun _ => rfl
  have hend : fetched.reachedEnd = false := by
    rw [hd.reachedEnd, Page.remaining, (sort_perm _ _).length_eq]
    decide
  obtain ⟨hne, c, hc, -⟩ := (hcall fetched r' _ hnext hend).1 size_pos
  exact ⟨fetched, r', hnext, hend, hne, by rw [hc]; rfl, hends size_pos⟩

/-- A policy can be read that leaves no room for a row. Four posts are never walked to the end
under it: each page is empty and says that more follows. -/
theorem collect_without_room : ∃ policy,
    (Json.Document.ofText? "\x7b\"default\":0,\"maximum\":0\x7d").bind SizePolicy.ofDocument? =
      some policy ∧
    ∃ reader fetched r', Reader.start ((Page.first Post.ranking).withPolicy policy) = .ok reader ∧
      reader.next MemoryTable.source Post.four = (.ok fetched, r', Post.four) ∧
      fetched.reachedEnd = false ∧ fetched.rows = [] ∧ r'.position = none ∧
      ∀ calls, reader.collect MemoryTable.source calls Post.four = none := by
  have hne : Post.four.fetch ⟨Post.ranking, none, 1⟩ ≠ [] := by
    refine List.ne_nil_of_length_pos ?_
    rw [MemoryTable.fetch, List.length_take, (sort_perm _ _).length_eq]
    decide
  obtain ⟨fetched, r', hnext, hrows, hend, hpage, -⟩ :=
    next_of_no_room (r := ⟨(Page.first Post.ranking).withPolicy ⟨0, 0⟩, .ready, 0⟩) rfl rfl rfl hne
  refine ⟨⟨0, 0⟩, by decide +kernel, _, fetched, r', rfl, hnext, hend, hrows, ?_,
    fun calls => collect_stuck calls rfl rfl rfl hne⟩
  rw [position, hpage]
  rfl

end Reader

end Keyset
