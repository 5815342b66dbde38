import Keyset.Proofs.Cursor.Fit
import Keyset.Proofs.Reader.Loss
import Keyset.Proofs.Reader.Tokens
import Mathlib.Logic.Relation

/-! # Readers stand where their ordering fits

A reader is made from a page or from a token, and then called any number of
times, each time on any source; some calls are dropped while they wait
(`Reachable`). Nothing of it moves a reader but the rows that it returns
(`called_page`), so its position fits the ordering all along (`position_fits`).

A position that fits sets a leading part of the key. Which part is told by its
names, except for those that are spelled as no position has them. If all of them
are, the reader is at the first page although it was given a position
(`fit_exact`, `Post.capital_restarts`). -/

namespace Keyset

namespace Page

variable {p : Page} {c : Cursor}

/-- An empty cursor is no position, and sets nothing either. -/
theorem lowerBound_after : (p.after (some c)).lowerBound = c.lowerBound p.order := by
  cases hempty : c.isEmpty with
  | false =>
    have hposition : (p.after (some c)).position = some c := by simp [after, hempty]
    rw [lowerBound, hposition]
    rfl
  | true =>
    have hposition : (p.after (some c)).position = none := by simp [after, hempty]
    rw [lowerBound, hposition]
    exact (Cursor.lowerBound_eq_none_iff.mpr (Cursor.fit_of_isEmpty hempty)).symm

end Page

namespace Reader

variable {o : SortOrder} {page : Page} {r r' : Reader} {token : String} {c : Cursor}

/-! ## Making readers -/

/-- If the first page may stand in for a token, there is a reader whatever the token is. -/
theorem resume_firstPage (page : Page) (token : String) : resume page token .firstPage =
    .ok ⟨page.after (Cursor.ofToken token page.order).toOption, .ready, 0⟩ := by
  cases hread : Cursor.ofToken token page.order with
  | ok c => exact resume_of_token hread .firstPage
  | error e =>
    simp only [resume, hread]
    exact start_eq_ok_iff.mpr ⟨rfl, fun d hd => by cases hd⟩

theorem resume_eq_ok {fallback : Fallback} (h : resume page token fallback = .ok r) :
    start r.page = .ok r ∧ r.page.order = page.order := by
  have hstart {p : Page} (hp : start p = .ok r) (ho : p.order = page.order) :
      start r.page = .ok r ∧ r.page.order = page.order := by
    obtain rfl : r = ⟨p, .ready, 0⟩ := (start_eq_ok_iff.mp hp).1
    exact ⟨hp, ho⟩
  unfold resume at h
  split at h
  · exact hstart h rfl
  · exact hstart h rfl
  · cases h

/-! ## Reachable readers -/

/-- A reader for an ordering as it is made, from a page or from a token. -/
inductive Made (o : SortOrder) : Reader → Prop
  | start {page : Page} {r : Reader} (order : page.order = o) (made : start page = .ok r) : Made o r
  | resume {page : Page} {token : String} {fallback : Fallback} {r : Reader}
      (order : page.order = o) (made : resume page token fallback = .ok r) : Made o r

/-- A call on a source that has been completed, or has been dropped while it waited. -/
inductive Called : Reader → Reader → Prop
  | completed {σ : Type} (source : Source σ) (s : σ) (r : Reader) : Called r (r.next source s).2.1
  | dropped {r : Reader} {p : Pending} (waiting : r.call = .waiting p) : Called r p.reader

/-- A reader for an ordering after any calls. -/
def Reachable (o : SortOrder) (r : Reader) : Prop :=
  ∃ made, Made o made ∧ Relation.ReflTransGen Called made r

/-- A completed call leaves the page alone or moves it behind a row that the source answered. -/
theorem next_page {σ : Type} (source : Source σ) (r : Reader) (s : σ) :
    (r.next source s).2.1.page = r.page ∨
      ∃ row c, Cursor.ofRow r.page.order row = .ok c ∧
        (r.next source s).2.1.page = r.page.after (some c) := by
  rw [← exchange_eq_next]
  rcases r.exchange_cases source s with ⟨-, hx⟩ | ⟨-, asked, e, s', -, hx⟩ |
    ⟨-, q, answered, fetched, r', s', -, hx, htake⟩
  · rw [hx]
    exact Or.inl rfl
  · rw [hx]
    exact Or.inl rfl
  · rw [hx]
    exact (take_moves htake).page.imp (·.2) fun ⟨last, c, _, hc, hpage⟩ => ⟨last, c, hc, hpage⟩

theorem call_eq_waiting {p : Pending} (h : r.call = .waiting p) : p.reader = r.dropped := by
  cases he : r.isExhausted with
  | true =>
    rw [call_of_exhausted he] at h
    cases h
  | false =>
    cases hq : r.request with
    | error e =>
      rw [call_of_error he hq] at h
      cases h
    | ok q =>
      rw [call_of_request he hq] at h
      cases h
      rfl

theorem called_page (h : Called r r') : r'.page = r.page ∨
    ∃ row c, Cursor.ofRow r.page.order row = .ok c ∧ r'.page = r.page.after (some c) := by
  cases h with
  | completed source s r => exact next_page source r s
  | dropped hwaiting => rw [call_eq_waiting hwaiting]; exact Or.inl rfl

/-- The reader has the ordering, and stands where it fits. -/
structure Fits (o : SortOrder) (r : Reader) : Prop where
  order : r.page.order = o
  position : ∀ c ∈ r.position, ∃ k, c.fit o = .ok k

/-- The reader has the ordering, and stands at values for the whole key. -/
structure FitsInFull (o : SortOrder) (r : Reader) : Prop where
  order : r.page.order = o
  position : ∃ c, r.position = some c ∧ c.fit o = .ok o.key.length

theorem FitsInFull.fits (h : FitsInFull o r) : Fits o r where
  order := h.order
  position := by
    obtain ⟨c, hc, hfit⟩ := h.position
    intro d hd
    rw [hc] at hd
    cases hd
    exact ⟨_, hfit⟩

theorem fitsInFull_of_after (ho : o.Trimmed) (horder : r.page.order = o) {row : Row}
    (hc : Cursor.ofRow r.page.order row = .ok c) (hpage : r'.page = r.page.after (some c)) :
    FitsInFull o r' := by
  subst horder
  refine ⟨by rw [hpage]; rfl, c, ?_, Cursor.fit_ofRow ho hc⟩
  rw [position, hpage]
  exact (Page.ahead_after_ofRow ho hc).1

theorem Made.fits (h : Made o r) : Fits o r := by
  cases h with
  | start horder h =>
    obtain ⟨rfl, hfits⟩ := start_eq_ok_iff.mp h
    exact ⟨horder, fun c hc => horder ▸ hfits c hc⟩
  | resume horder h =>
    obtain ⟨hstart, hpage⟩ := resume_eq_ok h
    exact ⟨hpage.trans horder,
      fun c hc => horder ▸ hpage ▸ (start_eq_ok_iff.mp hstart).2 c hc⟩

theorem Called.fits (h : Called r r') (ho : o.Trimmed) (hr : Fits o r) : Fits o r' := by
  rcases called_page h with hpage | ⟨row, c, hc, hpage⟩
  · exact ⟨hpage ▸ hr.order, fun c hc => hr.position c (by rwa [position, hpage] at hc)⟩
  · exact (fitsInFull_of_after ho hr.order hc hpage).fits

theorem Called.fitsInFull (h : Called r r') (ho : o.Trimmed) (hr : FitsInFull o r) :
    FitsInFull o r' := by
  rcases called_page h with hpage | ⟨row, c, hc, hpage⟩
  · exact ⟨hpage ▸ hr.order, by rw [position, hpage]; exact hr.position⟩
  · exact fitsInFull_of_after ho hr.order hc hpage

theorem Reachable.fits (h : Reachable o r) (ho : o.Trimmed) : Fits o r := by
  obtain ⟨made, hmade, hcalls⟩ := h
  induction hcalls with
  | refl => exact hmade.fits
  | tail _ hcalled ih => exact hcalled.fits ho ih

theorem FitsInFull.after (h : FitsInFull o r) (ho : o.Trimmed)
    (calls : Relation.ReflTransGen Called r r') : FitsInFull o r' := by
  induction calls with
  | refl => exact h
  | tail _ hcalled ih => exact hcalled.fitsInFull ho ih

/-- Where the position fits, there is a request. -/
theorem Fits.request (h : Fits o r) : ∃ q, r.request = .ok q := by
  have hlower : ∃ condition, r.page.lowerBound = .ok condition := by
    cases hp : r.page.position with
    | none => exact ⟨none, by rw [Page.lowerBound, hp]⟩
    | some c =>
      obtain ⟨k, hfit⟩ := h.position c hp
      rw [Page.lowerBound, hp, h.order]
      exact Cursor.exists_lowerBound hfit
  obtain ⟨condition, hc⟩ := hlower
  refine ⟨⟨r.page.order, condition, r.page.limit⟩, ?_⟩
  simp only [Reader.request, hc, bind, Except.bind]
  rfl

/-- No error of a call is one of the position. -/
theorem Fits.next_ne_cursor (h : Fits o r) {σ : Type} (source : Source σ) (s : σ)
    (e : CursorError) : (r.next source s).1 ≠ .error (.cursor e) := by
  intro herror
  cases he : r.isExhausted with
  | true =>
    rw [next_of_exhausted he] at herror
    cases herror
  | false =>
    obtain ⟨q, hq⟩ := h.request
    rw [next_of_request he hq] at herror
    cases hanswer : (source s q).1 with
    | error failure =>
      rw [hanswer] at herror
      cases herror
    | ok answered =>
      rw [hanswer] at herror
      cases hlast : lastPosition r.dropped.page.order
          (answered.take r.dropped.page.size.toNat) with
      | ok last =>
        simp only [Pending.settle, take_eq hlast] at herror
        cases herror
      | error failure =>
        obtain ⟨_, column, -, -, rfl, -, -⟩ := lastPosition_eq_error hlast
        simp only [Pending.settle, take, hlast, bind, Except.bind] at herror
        cases herror

/-- **The position of a reader fits its ordering.** A reader with the first page to stand in for
its token is always made. Let the names of the ordering be trimmed, and take a reader made from any
page or token and called any number of times on any sources. It keeps the ordering, its position
fits, and no call on whatever source returns an error for the position. Once a call has returned
rows, it stands at values for the whole key, from there on. -/
theorem position_fits (o : SortOrder) :
    (∀ page token, page.order = o → Reader.resume page token .firstPage =
      .ok ⟨page.after (Cursor.ofToken token o).toOption, .ready, 0⟩) ∧
    (o.Trimmed → ∀ r, Reachable o r →
      r.page.order = o ∧ (∀ c, r.position = some c → ∃ k, c.fit o = .ok k) ∧
      ∀ (σ : Type) (source : Source σ) (s : σ),
        (∀ e, (r.next source s).1 ≠ .error (.cursor e)) ∧
        ∀ fetched r' s', r.next source s = (.ok fetched, r', s') → fetched.rows ≠ [] →
          ∀ later, Relation.ReflTransGen Called r' later →
            ∃ c, later.position = some c ∧ c.fit o = .ok o.key.length) := by
  refine ⟨fun page token horder => horder ▸ resume_firstPage page token, fun ho r hr => ?_⟩
  have hfits := hr.fits ho
  refine ⟨hfits.order, hfits.position, fun σ source s => ⟨hfits.next_ne_cursor source s, ?_⟩⟩
  intro fetched r' s' hnext hrows later hlater
  suffices hfull : FitsInFull o r' from (hfull.after ho hlater).position
  rcases next_cases hnext with ⟨-, rfl, -, -⟩ | ⟨q, answered, -, -, -, hmoves⟩
  · exact absurd rfl hrows
  · obtain ⟨hnil, -⟩ | ⟨last, c, -, hc, hpage⟩ := hmoves.page
    · exact absurd hnil hrows
    · exact fitsInFull_of_after ho hfits.order hc hpage

end Reader

namespace Post

/-- A page of one post in the ranking. -/
def best : Page := (Page.first ranking).withSize 1

/-- The reader that has got a post with a score of 3, of two, and has then failed to get the
other. -/
def failed : Reader :=
  ((Reader.next Source.script ⟨best, .ready, 0⟩ [.ok [rated (.int 3), rated (.int 2)]]).2.1.next
    Source.script [.error .unreadable]).2.1

/-- A reader stays at the post that it got also if the next call fails. -/
theorem failed_fits : ranking.Trimmed ∧ Reader.Reachable ranking ⟨best, .ready, 0⟩ ∧
    ∃ c, failed.position = some c ∧ c.fit ranking = .ok 2 := by
  have htrimmed : ranking.Trimmed := by decide
  have hstart : Reader.start best = .ok ⟨best, .ready, 0⟩ := rfl
  have hreachable : Reader.Reachable ranking ⟨best, .ready, 0⟩ := ⟨_, .start rfl hstart, .refl⟩
  obtain ⟨-, hposition⟩ := Reader.position_fits ranking
  obtain ⟨-, -, hcalls⟩ := hposition htrimmed _ hreachable
  obtain ⟨-, hreturned⟩ := hcalls _ Source.script [.ok [rated (.int 3), rated (.int 2)]]
  refine ⟨htrimmed, hreachable, hreturned _ _ _ rfl ?_ failed (.single (.completed _ _ _))⟩
  exact List.cons_ne_nil _ _

end Post

namespace Reader

/-! ## Positions that set nothing -/

/-- **What fits, and what sets nothing.** Let the names of an ordering be trimmed. A cursor fits the
ordering up to a place exactly if all its names are names of key columns in some spelling, those
that are spelled as in positions are the names of the key columns before the place, and null stands
only where it may. For a cursor whose names are all spelled so, the place is its length, and only
without names does it set nothing. The cursors made of pairs or of a row are of this kind, those
that are read need not be. A cursor sets nothing exactly if it fits and has no name so spelled, and
so a reader that is made from its token asks for the first page, whatever else the cursor has. -/
theorem fit_exact (o : SortOrder) (ho : o.Trimmed) (c : Cursor) :
    (∀ k, c.fit o = .ok k ↔ c.Spells o ∧ k ≤ o.key.length ∧
      c.canonicalNames.Perm ((o.key.take k).map fun column => Cursor.keyName column.name) ∧
      c.NullsAllowed (o.key.take k)) ∧
    (c.Canonical →
      (∀ k, c.fit o = .ok k ↔ k = c.size ∧
        c.values.names.Perm ((o.key.take k).map fun column => Cursor.keyName column.name) ∧
        c.NullsAllowed (o.key.take k)) ∧
      (c.lowerBound o = .ok none ↔ c.isEmpty = true)) ∧
    (∀ pairs, c = .ofPairs pairs → c.Canonical) ∧
    (∀ p row, Cursor.ofRow p row = .ok c → c.Canonical) ∧
    (c.lowerBound o = .ok none ↔ c.Spells o ∧ c.canonicalNames = []) ∧
    ∀ page token fallback, page.order = o → Cursor.ofToken token o = .ok c →
      ∃ r q, Reader.resume page token fallback = .ok r ∧ r.request = .ok q ∧
        (q.condition = none ↔ c.canonicalNames = []) := by
  refine ⟨fun _ => Cursor.fit_eq_ok_iff_canonicalNames ho, fun hcanonical => ⟨fun _ =>
    hcanonical.fit_eq_ok_iff ho, ?_⟩, ?_, fun _ _ h => Cursor.canonical_ofRow h,
    Cursor.lowerBound_eq_none_iff_canonicalNames ho, ?_⟩
  · rw [Cursor.lowerBound_eq_none_iff_canonicalNames ho, hcanonical.canonicalNames_eq,
      Cursor.isEmpty_iff]
    refine and_iff_right_of_imp fun hnames name hm => ?_
    rw [hnames] at hm
    cases hm
  · rintro pairs rfl
    exact Cursor.canonical_ofPairs pairs
  · rintro page token fallback rfl hread
    obtain ⟨k, hfit⟩ := Cursor.fit_of_ofToken hread
    obtain ⟨condition, hcondition⟩ := Cursor.exists_lowerBound hfit
    have hspells := ((Cursor.fit_eq_ok_iff_canonicalNames ho).mp hfit).1
    refine ⟨_, ⟨page.order, condition, page.limit⟩, resume_of_token hread fallback, ?_, ?_⟩
    · simp only [request, Page.lowerBound_after, hcondition, bind, Except.bind]
      rfl
    · have hnone := Cursor.lowerBound_eq_none_iff_canonicalNames (c := c) ho
      rw [hcondition, Except.ok.injEq, and_iff_right hspells] at hnone
      exact hnone

end Reader

namespace Post

/-- The position of a post with a score sets both columns, and its token leads behind the post. -/
theorem rated_asks : ranking.Trimmed ∧
    (behindRated (.int 3)).fit ranking = .ok (behindRated (.int 3)).size ∧
    ∃ r q, Reader.resume best ((behindRated (.int 3)).token ranking) .reject = .ok r ∧
      r.request = .ok q ∧ q.condition ≠ none := by
  have htrimmed : ranking.Trimmed := by decide
  have hcanonical : (behindRated (.int 3)).Canonical := by decide
  have hshort : ¬ CursorError.sizeLimit < ((behindRated (.int 3)).token ranking).utf8ByteSize := by
    decide +kernel
  have hread : Cursor.ofToken ((behindRated (.int 3)).token ranking) ranking =
      .ok (behindRated (.int 3)) := by
    rw [Cursor.ofToken_token_self, if_neg hshort]
    rfl
  obtain ⟨-, hexact, -, -, -, htoken⟩ := Reader.fit_exact ranking htrimmed (behindRated (.int 3))
  obtain ⟨r, q, hr, hq, hnone⟩ := htoken best _ .reject rfl hread
  refine ⟨htrimmed, ((hexact hcanonical).1 _).mpr ⟨rfl, ?_, ?_⟩, r, q, hr, hq, ?_⟩
  · decide
  · decide
  · rw [Ne, hnone]
    decide

/-- Posts by their id. -/
def byId : SortOrder := ⟨[⟨"id", .ascending, false, true, none⟩], by decide⟩

/-- Behind post 1, as a cursor with a capital in its name. It is read like this, but no position has
such a name. -/
def capitalId : Cursor := ⟨Dictionary.empty.insert "ID" (.int 1)⟩

/-- A cursor with a name in capitals fits, but sets no column. Its token is accepted, and the reader
that is made from it asks what a reader asks at the first page. -/
theorem capital_restarts :
    Cursor.ofDocument? (.record [("ID", .record [("Int", .ofNat 1)])]) = some capitalId ∧
    capitalId.size = 1 ∧ capitalId.isEmpty = false ∧
    capitalId.fit byId = .ok 0 ∧ capitalId.lowerBound byId = .ok none ∧
    Cursor.ofToken (capitalId.token byId) byId = .ok capitalId ∧
    ∃ r, Reader.resume (Page.first byId) (capitalId.token byId) .reject = .ok r ∧
      r.position = some capitalId ∧
      r.request = Reader.request ⟨Page.first byId, .ready, 0⟩ := by
  have hread : Cursor.ofToken (capitalId.token byId) byId = .ok capitalId := by
    rw [Cursor.ofToken_token_self, if_neg (by decide +kernel)]
    rfl
  have hresume : Reader.resume (Page.first byId) (capitalId.token byId) .reject =
      .ok ⟨(Page.first byId).after (some capitalId), .ready, 0⟩ := by
    rw [Reader.resume_reject]
    show (Cursor.ofToken _ byId).map _ = _
    rw [hread]
    rfl
  exact ⟨by decide, rfl, rfl, rfl, rfl, hread, _, hresume, rfl, rfl⟩

end Post

end Keyset
