import Keyset.Proofs.Reader.Loss

/-! # Which tables are covered by a walk

A walk asks for the rows behind the last one it got, and so it never returns two
rows that compare equal unless they are on one page. With pages of one row it
returns rows in strictly ascending order, whatever the table
(`collect_climbs`). So a table of complete rows is covered by walks with pages of
any size exactly if no two of its rows compare equal (`apart_iff_covers`). -/

namespace Keyset.Reader

open SortOrder

variable {t : MemoryTable} {r r' : Reader} {fetched : FetchedPage} {pages : List FetchedPage}

/-- A walk from a page on comes to the end of the listing without an error, and its pages have the
rows of the table, each as often as the table has it. -/
def Covers (page : Page) (t : MemoryTable) : Prop :=
  ∃ reader pages rest enough, start page = .ok reader ∧
    (∀ calls, enough ≤ calls →
      reader.collect MemoryTable.source calls t = some (.ok pages, rest, t)) ∧
    (pages.flatMap (·.rows)).Perm t.rows

/-! ## Pages of one row -/

/-- The rows of the pages are found by the page that the walk starts from, and each is below all
that follow. -/
structure Climbs (p : Page) (pages : List FetchedPage) : Prop where
  ascending : p.order.Ascending (pages.flatMap (·.rows))
  found : ∀ row ∈ pages.flatMap (·.rows), p.finds row = true

theorem Finds.climbs_last (hd : r.Finds t fetched r') (hs : r.page.size.toNat = 1) :
    Climbs r.page [fetched] := by
  have hfound : ∀ row ∈ fetched.rows, r.page.finds row = true := by
    intro row hrow
    exact (hd.found hrow).2
  have hlength : fetched.rows.length ≤ 1 := by
    rw [hd.rows, List.length_take, hs]
    exact Nat.min_le_left 1 _
  refine ⟨?_, ?_⟩ <;> rw [List.flatMap_singleton]
  · cases hrows : fetched.rows with
    | nil => exact List.Pairwise.nil
    | cons row rows =>
      obtain rfl : rows = [] := by
        rw [hrows, List.length_cons] at hlength
        exact List.eq_nil_of_length_eq_zero (by omega)
      exact List.pairwise_singleton _ row
  · exact hfound

theorem Finds.climbs_cons (hd : r.Finds t fetched r') (hs : r.page.size.toNat = 1) {last : Row}
    (hlast : fetched.rows.getLast? = some last) (hrest : Climbs r'.page pages) :
    Climbs r.page (fetched :: pages) := by
  have hrow := hd.climbs_last hs
  have hreached : ∀ row ∈ pages.flatMap (·.rows),
      Reaches r.page.order.key row.value last.value := by
    intro row hm
    exact (hd.moved last hlast row).mp (hrest.found row hm)
  have hascending := hrest.ascending
  rw [hd.order] at hascending
  obtain ⟨hpage, hfound⟩ := hrow
  rw [List.flatMap_singleton] at hpage hfound
  refine ⟨?_, ?_⟩ <;> rw [List.flatMap_cons]
  · refine List.pairwise_append.mpr ⟨hpage, hascending, ?_⟩
    intro a ha b hb
    have hle := Ascending.isLE_last hpage hlast ha
    have hgt := (reaches_iff.mp (hreached b hb)).1
    exact Std.TransCmp.lt_of_isLE_of_lt hle (Std.OrientedCmp.lt_of_gt hgt)
  · intro row hm
    rcases List.mem_append.mp hm with hm | hm
    · exact hfound row hm
    · exact Page.finds_of_reaches (hfound last (List.mem_of_getLast? hlast)) (hreached row hm)

theorem next_size {σ : Type} {source : Source σ} {s s' : σ}
    (h : r.next source s = (.ok fetched, r', s')) : r'.page.size = r.page.size := by
  rcases next_cases h with ⟨-, -, rfl, -⟩ | ⟨q, answered, -, -, -, hm⟩
  · rfl
  · rw [hm.page_eq]
    rfl

/-- With pages of one row, a walk of any table returns rows in strictly ascending order. -/
theorem collect_climbs {calls : Nat} {rest : Reader} {s : MemoryTable} (h : r.page.WellPlaced)
    (hs : r.page.size.toNat = 1) (he : r.isExhausted = false)
    (hc : r.collect MemoryTable.source calls t = some (.ok pages, rest, s)) :
    Climbs r.page pages := by
  induction calls generalizing r pages with
  | zero => cases hc
  | succ calls ih =>
    rcases next_finds h he t with ⟨fetched, r', hnext, hd⟩ | ⟨_, _, -, -, -, -, _, hnext⟩
    · cases hend : fetched.reachedEnd with
      | true =>
        simp only [collect, hnext, hend, if_true] at hc
        cases hc
        exact hd.climbs_last hs
      | false =>
        simp only [collect, hnext, hend, Bool.false_eq_true, if_false] at hc
        obtain ⟨⟨result, _, _⟩, hcollect, hresult⟩ := Option.map_eq_some_iff.mp hc
        obtain ⟨last, hlast⟩ := hd.exists_last h.size_pos hend
        cases result with
        | error e => cases hresult
        | ok following =>
          cases hresult
          refine hd.climbs_cons hs hlast (ih hd.wellPlaced ?_ ?_ hcollect)
          · rw [next_size hnext, hs]
          · rw [hd.exhausted, hend]
    · simp only [collect, hnext] at hc
      cases hc

/-- What a walk with pages of one row covers are rows of which no two compare equal. -/
theorem apart_of_covers {page : Page} (h : page.WellPlaced) (hs : page.size.toNat = 1)
    (hc : Covers page t) : page.order.Apart t.rows := by
  obtain ⟨reader, pages, rest, enough, hstart, hcollect, hperm⟩ := hc
  obtain ⟨rfl, -⟩ := start_eq_ok_iff.mp hstart
  have hclimbs := collect_climbs (r := ⟨page, .ready, 0⟩) h hs rfl
    (hcollect enough (Nat.le_refl enough))
  exact hclimbs.ascending.apart.perm hperm

/-! ## Pages of any size -/

/-- The walk of a table of complete rows that are apart covers it. -/
theorem covers_of_sound {page : Page} (h : page.WellPlaced) (hfirst : page.position = none)
    (ht : t.Sound page.order) : Covers page t := by
  obtain ⟨result, rest, enough, hends, hcollect⟩ :=
    collect_ends ⟨page, .ready, 0⟩ h ht.apart rfl
  rcases hends with ⟨column, hc, -, hn, row, hrow, hnull⟩ | ⟨pages, rfl, hleaves⟩
  · have hthere := ht.complete row hrow column hc hn
    rw [hnull] at hthere
    cases hthere
  · refine ⟨_, pages, rest, enough, start_eq_ok_iff.mpr ⟨rfl, h.fits⟩, hcollect, ?_⟩
    refine (List.perm_ext_iff_of_nodup hleaves.ascending.nodup ht.apart.nodup).mpr fun row => ?_
    rw [hleaves.mem_iff, and_iff_right (Page.finds_of_position_none hfirst row)]
    refine and_iff_left_of_imp fun hrow p _ last _ => ?_
    exact (ht.complete row hrow).not_passesOver last

/-- A table of complete rows is covered by walks with pages of any size exactly if no two of its
rows compare equal. -/
theorem apart_iff_covers {o : SortOrder} (ho : o.Trimmed) (ht : ∀ row ∈ t.rows, o.Complete row) :
    o.Apart t.rows ↔ ∀ page : Page, page.order = o → page.position = none → page.Sized →
      Covers page t := by
  constructor
  · rintro hapart page rfl hfirst hsized
    exact covers_of_sound (hsized.wellPlaced ho hfirst) hfirst ⟨ht, hapart⟩
  · -- pages of one row suffice
    intro hcovers
    have hone : ((Page.first o).withSize 1).size.toNat = 1 := rfl
    have hsized : ((Page.first o).withSize 1).Sized := by
      rw [Page.Sized, hone]
      decide
    have hplaced := hsized.wellPlaced ho rfl
    exact apart_of_covers hplaced hone (hcovers _ rfl rfl hsized)

end Keyset.Reader
