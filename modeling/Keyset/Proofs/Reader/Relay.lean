import Keyset.Proofs.Cursor.Token
import Keyset.Proofs.Reader.Exact
import Keyset.Proofs.Reader.Moves

/-! # Readers that hand over by tokens

A chain of readers reads a table one after the other, each from the token of the
one before (`Relay`). What has been returned and what the present reader has left
are together the table in order (`Stands`). A call moves rows from one to the
other (`Stands.next`), and a token hands the position over as it is
(`Stands.resume`), whatever the page sizes. -/

namespace Keyset

open SortOrder

/-- No field holds a NaN or an infinity. -/
def Row.isFinite (row : Row) : Bool := row.fields.all fun f => f.value.all (·.isFinite)

theorem Row.isFinite_value {row : Row} (h : row.isFinite = true) (name : String) :
    (row.value name).isFinite = true := by
  cases hf : row.field? name with
  | none => rw [value, hf]; rfl
  | some f =>
    have hfield := List.all_eq_true.mp h f (List.mem_of_find?_eq_some hf)
    rw [value, hf, Option.bind_some]
    cases hv : f.value with
    | none => rfl
    | some v => rwa [hv] at hfield

theorem Cursor.isFinite_ofRow {o : SortOrder} {row : Row} {c : Cursor}
    (h : Cursor.ofRow o row = .ok c) (hr : row.isFinite = true) : c.isFinite = true := by
  refine List.all_eq_true.mpr fun e he => ?_
  obtain ⟨column, -, rfl⟩ := mem_entries_ofRow h he
  exact Row.isFinite_value hr column.name

namespace Page

/-- What lies ahead depends on the position only. -/
theorem remaining_after {p q : Page} {c : Cursor} (ho : q.order = p.order)
    (hp : p.position = some c) (rows : List Row) :
    (q.after (some c)).remaining rows = p.remaining rows := by
  have hahead : (q.after (some c)).ahead = p.ahead := by
    funext row
    cases hc : c.isEmpty with
    | false =>
      have hq : (q.after (some c)).position = some c := by simp [after, hc]
      rw [Bool.eq_iff_iff, ahead_of_position_some hq, ahead_of_position_some hp, ← ho]
      rfl
    | true =>
      -- a cursor without values sets no column
      have hq : (q.after (some c)).position = none := by simp [after, hc]
      have hleading : c.leading p.order.key = [] := by
        have hnone (column : SortColumn) : c.sets column = false := by
          have hentries : c.values.entries = [] := List.isEmpty_iff.mp hc
          rw [Cursor.sets, Cursor.find?, Dictionary.find?, hentries]
          rfl
        rw [Cursor.leading]
        cases p.order.key with
        | nil => rfl
        | cons column columns => rw [List.takeWhile_cons, hnone]; rfl
      rw [ahead_of_position_none hq, (ahead_of_position_some hp row).mpr (Or.inl hleading)]
  show q.order.sort (rows.filter (q.after (some c)).ahead) = p.order.sort (rows.filter p.ahead)
  rw [hahead, ho]

end Page

namespace Reader

/-- All pages that a chain of readers has read of a table, and the reader that is at it. The first
reader starts at the first page. Each reader after it resumes from the token of the one before,
which is no longer than a token may be. Each reads one page or more, of a size of its own. -/
inductive Relay (o : SortOrder) (t : MemoryTable) : List FetchedPage → Reader → Prop
  | start {page : Page} {fetched : FetchedPage} {r r' : Reader} :
    page.order = o → page.position = none → page.Sized → Reader.start page = .ok r →
    r.next MemoryTable.source t = (.ok fetched, r', t) → Relay o t [fetched] r'
  | next {pages : List FetchedPage} {fetched : FetchedPage} {r r' : Reader} :
    Relay o t pages r → r.next MemoryTable.source t = (.ok fetched, r', t) →
    Relay o t (pages ++ [fetched]) r'
  | resume {pages : List FetchedPage} {page : Page} {token : String} {fetched : FetchedPage}
      {r r₁ r' : Reader} :
    Relay o t pages r → r.token? = some token → token.utf8ByteSize ≤ CursorError.sizeLimit →
    page.order = o → page.Sized → Reader.resume page token .reject = .ok r₁ →
    r₁.next MemoryTable.source t = (.ok fetched, r', t) → Relay o t (pages ++ [fetched]) r'

/-- The rows returned so far and those that the reader has left are the table in order. -/
structure Stands (o : SortOrder) (t : MemoryTable) (returned : List Row) (r : Reader) :
    Prop where
  order : r.page.order = o
  wellPlaced : r.page.WellPlaced
  /-- The position is that of a row. -/
  placed : ∀ c ∈ r.position, ∃ row ∈ t.rows, Cursor.ofRow o row = .ok c
  split : returned ++ r.page.remaining t.rows = o.sort t.rows
  ended : r.isExhausted = true → r.page.remaining t.rows = []

variable {o : SortOrder} {t : MemoryTable} {r : Reader} {returned : List Row}

theorem stands_start {page : Page} (ho : o.Trimmed) (horder : page.order = o)
    (hposition : page.position = none) (hsize : page.Sized) :
    Stands o t [] ⟨page, .ready, 0⟩ where
  order := horder
  wellPlaced := hsize.wellPlaced (horder ▸ ho) hposition
  placed := fun c hc => by
    have hnone : page.position = some c := hc
    rw [hposition] at hnone
    cases hnone
  split := by
    have hall : t.rows.filter page.ahead = t.rows :=
      List.filter_eq_self.mpr fun row _ => Page.ahead_of_position_none hposition row
    rw [List.nil_append, Page.remaining, hall, horder]
  ended := fun h => by cases h

theorem Stands.length_add (h : Stands o t returned r) :
    returned.length + (r.page.remaining t.rows).length = t.rows.length := by
  rw [← List.length_append, h.split, (sort_perm o t.rows).length_eq]

/-- A call returns the first of the rows that the reader has left. -/
theorem Stands.next (h : Stands o t returned r) (ht : t.Sound o) :
    ∃ fetched r', r.next MemoryTable.source t = (.ok fetched, r', t) ∧
      Stands o t (returned ++ fetched.rows) r' ∧ r'.isExhausted = fetched.reachedEnd ∧
      fetched.rows = (r.page.remaining t.rows).take r.page.size.toNat ∧
      fetched.reachedEnd = decide ((r.page.remaining t.rows).length ≤ r.page.size.toNat) := by
  have horder := h.order
  subst horder
  cases he : r.isExhausted with
  | true =>
    have hleft := h.ended he
    refine ⟨.exhausted r.position, r, next_of_exhausted he, ?_, he, ?_, ?_⟩
    · rw [FetchedPage.exhausted, List.append_nil]
      exact h
    · rw [hleft, List.take_nil]
      rfl
    · rw [hleft]
      exact (decide_eq_true (Nat.zero_le _)).symm
  | false =>
    obtain ⟨q, fetched, r', -, hnext, hd⟩ :=
      next_delivers MemoryTable.source t h.wellPlaced ht.complete he fun _ => rfl
    have hleft := hd.remaining_eq_drop ht.apart
    refine ⟨fetched, r', hnext, ?_, hd.exhausted, hd.rows, hd.reachedEnd⟩
    exact {
      order := hd.order
      wellPlaced := hd.wellPlaced
      placed := by
        intro c hc
        rcases next_position hnext c hc with hsame | ⟨last, hlast, hrow⟩
        · exact h.placed c hsame
        · rw [hd.rows] at hlast
          exact ⟨last, (Page.mem_remaining.mp (List.mem_of_mem_take hlast)).1, hrow⟩
      split := by
        rw [hleft, hd.rows, List.append_assoc, List.take_append_drop]
        exact h.split
      ended := by
        intro hend
        rw [hd.exhausted, hd.reachedEnd, decide_eq_true_eq] at hend
        rw [hleft, List.drop_eq_nil_iff]
        exact hend }

/-- The token of a reader gives a reader that has the same rows left. -/
theorem Stands.resume {token : String} {page : Page} (h : Stands o t returned r)
    (hfinite : ∀ row ∈ t.rows, row.isFinite = true) (htoken : r.token? = some token)
    (hshort : token.utf8ByteSize ≤ CursorError.sizeLimit) (horder : page.order = o)
    (hsize : page.Sized) :
    Reader.resume page token .reject = .ok ⟨page.after r.position, .ready, 0⟩ ∧
      Stands o t returned ⟨page.after r.position, .ready, 0⟩ := by
  obtain ⟨c, hc, rfl⟩ := Option.map_eq_some_iff.mp htoken
  have hposition : r.page.position = some c := hc
  have hsame : page.order = r.page.order := horder.trans h.order.symm
  obtain ⟨k, hfit⟩ := h.wellPlaced.fits c hposition
  have hc' : c.isFinite = true := by
    obtain ⟨row, hmem, hrow⟩ := h.placed c hc
    exact Cursor.isFinite_ofRow hrow (hfinite row hmem)
  have hread : Cursor.ofToken (c.token r.page.order) page.order = .ok c := by
    rw [hsame]
    exact Cursor.ofToken_token hfit hc' hshort
  have hfits : ∀ d ∈ (page.after (some c)).position,
      ∃ k, d.fit (page.after (some c)).order = .ok k := by
    intro d hd
    rw [Page.eq_of_mem_after hd]
    exact ⟨k, hsame ▸ hfit⟩
  rw [hc]
  constructor
  · simp only [Reader.resume, hread]
    exact start_eq_ok_iff.mpr ⟨rfl, hfits⟩
  · exact {
      order := horder
      wellPlaced := ⟨horder ▸ h.order ▸ h.wellPlaced.trimmed, hfits, hsize.1, hsize.2⟩
      placed := by
        intro d hd
        rw [Page.eq_of_mem_after hd]
        exact h.placed c hc
      split := by
        rw [Page.remaining_after hsame hposition]
        exact h.split
      ended := fun he => by cases he }

/-- All along a chain the reader stands where the rows returned end, and it is exhausted exactly
if the last page said so. -/
theorem Relay.stands {pages : List FetchedPage} (h : Relay o t pages r) (ho : o.Trimmed)
    (ht : t.Sound o) (hfinite : ∀ row ∈ t.rows, row.isFinite = true) :
    Stands o t (pages.flatMap (·.rows)) r ∧
      ∀ last ∈ pages.getLast?, last.reachedEnd = r.isExhausted := by
  -- what a call returns is what `Stands.next` says it does
  have step {pages : List FetchedPage} {fetched : FetchedPage} {r r' : Reader}
      (hr : Stands o t (pages.flatMap (·.rows)) r)
      (hnext : r.next MemoryTable.source t = (.ok fetched, r', t)) :
      Stands o t ((pages ++ [fetched]).flatMap (·.rows)) r' ∧
        ∀ last ∈ (pages ++ [fetched]).getLast?, last.reachedEnd = r'.isExhausted := by
    obtain ⟨fetched', r'', hnext', hstands, hend, -⟩ := hr.next ht
    rw [hnext'] at hnext
    cases hnext
    refine ⟨by simpa using hstands, fun last hlast => ?_⟩
    rw [List.getLast?_concat] at hlast
    cases hlast
    exact hend.symm
  induction h with
  | start horder hposition hsize hstart hnext =>
    have hr := (start_eq_ok_iff.mp hstart).1
    subst hr
    have hfirst : Stands o t (([] : List FetchedPage).flatMap (·.rows)) ⟨_, .ready, 0⟩ :=
      stands_start ho horder hposition hsize
    exact step hfirst hnext
  | next _ hnext ih => exact step ih.1 hnext
  | resume _ htoken hshort horder hsize hresume hnext ih =>
    obtain ⟨hresume', hstands⟩ := ih.1.resume hfinite htoken hshort horder hsize
    rw [hresume'] at hresume
    cases hresume
    exact step hstands hnext

/-- **Handing over by tokens loses nothing.** Let a table of complete rows with finite numbers, no
two of which compare equal, be read by a chain of readers. No call and no resumption of the chain
fails. What its pages have together is the beginning of the rows in order, and it is all of them
once a page tells that the end is reached. -/
theorem relay_exact (o : SortOrder) (t : MemoryTable) (trimmed : o.Trimmed)
    (complete : ∀ row ∈ t.rows, o.Complete row) (apart : o.Apart t.rows)
    (finite : ∀ row ∈ t.rows, row.isFinite = true) :
    (∀ page : Page, page.order = o → page.position = none → page.Sized →
      ∃ r fetched r', Reader.start page = .ok r ∧
        r.next MemoryTable.source t = (.ok fetched, r', t)) ∧
    ∀ (pages : List FetchedPage) (r : Reader), Relay o t pages r →
      (pages.flatMap (·.rows) <+: o.sort t.rows) ∧
      (∀ last ∈ pages.getLast?, last.reachedEnd = true →
        pages.flatMap (·.rows) = o.sort t.rows) ∧
      (∃ fetched r', r.next MemoryTable.source t = (.ok fetched, r', t)) ∧
      ∀ (page : Page) (token : String), page.order = o → page.Sized → r.token? = some token →
        token.utf8ByteSize ≤ CursorError.sizeLimit →
        ∃ r₁ fetched r', Reader.resume page token .reject = .ok r₁ ∧
          r₁.next MemoryTable.source t = (.ok fetched, r', t) := by
  have ht : t.Sound o := ⟨complete, apart⟩
  constructor
  · intro page horder hposition hsize
    have hstands : Stands o t [] ⟨page, .ready, 0⟩ :=
      stands_start trimmed horder hposition hsize
    obtain ⟨fetched, r', hnext, -⟩ := hstands.next ht
    exact ⟨_, fetched, r', start_eq_ok_iff.mpr ⟨rfl, hstands.wellPlaced.fits⟩, hnext⟩
  · intro pages r h
    obtain ⟨hstands, hend⟩ := h.stands trimmed ht finite
    refine ⟨⟨_, hstands.split⟩, fun last hlast hreached => ?_, ?_, ?_⟩
    · have hleft := hstands.ended (by rw [← hend last hlast, hreached])
      rw [← hstands.split, hleft, List.append_nil]
    · obtain ⟨fetched, r', hnext, -⟩ := hstands.next ht
      exact ⟨fetched, r', hnext⟩
    · intro page token horder hsize htoken hshort
      obtain ⟨hresume, hresumed⟩ := hstands.resume finite htoken hshort horder hsize
      obtain ⟨fetched, r', hnext, -⟩ := hresumed.next ht
      exact ⟨_, fetched, r', hresume, hnext⟩

/-- The positions of the posts have short tokens. -/
theorem short_tokens : ∀ row ∈ Post.four.rows,
    ((Cursor.ofRow Post.ranking row).toOption.all fun c =>
      decide ((c.token Post.ranking).utf8ByteSize ≤ CursorError.sizeLimit)) = true := by
  decide +kernel

/-- A reader reads two of four posts, and one that resumes from its token, with larger pages, the
other two. -/
theorem relay_ranking : ∃ pages r, Relay Post.ranking Post.four pages r ∧ pages.length = 2 ∧
    pages.flatMap (·.rows) = Post.ranking.sort Post.four.rows := by
  have ht : Post.four.Sound Post.ranking := by decide
  have hfinite : ∀ row ∈ Post.four.rows, row.isFinite = true := by decide
  have hsmall : ((Page.first Post.ranking).withSize 2).Sized := by decide
  have hlarge : ((Page.first Post.ranking).withSize 5).Sized := by decide
  have hready : Stands Post.ranking Post.four []
      ⟨(Page.first Post.ranking).withSize 2, .ready, 0⟩ :=
    stands_start (by decide) rfl rfl hsmall
  obtain ⟨first, r₁, hfirst, hstands, -, hrows, -⟩ := hready.next ht
  have hrelay : Relay Post.ranking Post.four [first] r₁ := .start rfl rfl hsmall rfl hfirst
  have hsize : ((Page.first Post.ranking).withSize 2).size.toNat = 2 := by decide
  have hfour : Post.four.rows.length = 4 := rfl
  have hcount : first.rows.length = 2 := by
    have hall := hready.length_add
    rw [hrows, List.length_take, hsize]
    rw [hfour, List.length_nil] at hall
    omega
  have hleft := hstands.length_add
  rw [List.nil_append, hcount, hfour] at hleft
  -- the first reader stands behind a row, and so its token is short
  obtain ⟨c, hc⟩ : ∃ c, r₁.position = some c := by
    refine Option.ne_none_iff_exists'.mp fun hnone => ?_
    have hahead : Post.four.rows.filter r₁.page.ahead = Post.four.rows :=
      List.filter_eq_self.mpr fun row _ => Page.ahead_of_position_none hnone row
    rw [Page.remaining, hahead, (sort_perm _ _).length_eq, hfour] at hleft
    omega
  obtain ⟨row, hmem, hrow⟩ := hstands.placed c hc
  have hshort : (c.token Post.ranking).utf8ByteSize ≤ CursorError.sizeLimit := by
    have hdecided := short_tokens row hmem
    rw [hrow, Except.toOption, Option.all_some, decide_eq_true_eq] at hdecided
    exact hdecided
  have htoken : r₁.token? = some (c.token Post.ranking) := by
    rw [token?, hc, Option.map_some, hstands.order]
  obtain ⟨hresume, hresumed⟩ := hstands.resume hfinite htoken hshort rfl hlarge
  obtain ⟨rest, r₂, hrest, -, -, -, hend⟩ := hresumed.next ht
  have hwhole := hrelay.resume htoken hshort rfl hlarge hresume hrest
  have hexact := relay_exact Post.ranking Post.four (by decide) ht.complete ht.apart hfinite
  refine ⟨_, r₂, hwhole, rfl, (hexact.2 _ _ hwhole).2.1 rest rfl ?_⟩
  have hrestLeft := hresumed.length_add
  rw [List.nil_append, hcount, hfour] at hrestLeft
  rw [hend]
  refine decide_eq_true ?_
  show _ ≤ 5
  omega

end Reader

end Keyset
