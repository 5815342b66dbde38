import Keyset.Proofs.Reader.Disturbed

/-! # What a call returns and where it leaves the reader

Whatever the source and its rows: a call that returns a page either finds the
reader exhausted and changes nothing, or has put a request to the source and
taken the page from the answer (`next_cases`). The reader then stands behind the
last row of the page (`Moves`). -/

namespace Keyset

theorem Page.eq_of_mem_after {p : Page} {c d : Cursor}
    (h : d ∈ (p.after (some c)).position) : d = c := by
  have hsome : (some c).filter (fun c => !c.isEmpty) = some d := h
  exact (Option.some.inj (Option.filter_eq_some_iff.mp hsome).1).symm

namespace Reader

/-- The page taken from an answer, and the reader behind it. -/
structure Moves (r : Reader) (answered : List Row) (fetched : FetchedPage) (r' : Reader) :
    Prop where
  rows : fetched.rows = answered.take r.page.size.toNat
  reachedEnd : fetched.reachedEnd = decide (answered.length ≤ r.page.size.toNat)
  exhausted : r'.isExhausted = fetched.reachedEnd
  page : fetched.rows = [] ∧ r'.page = r.page ∨ ∃ last c, fetched.rows.getLast? = some last ∧
    Cursor.ofRow r.page.order last = .ok c ∧ r'.page = r.page.after (some c)

theorem lastPosition_eq_ok {o : SortOrder} {rows : List Row} {position : Option Cursor}
    (h : lastPosition o rows = .ok position) :
    rows = [] ∧ position = none ∨ ∃ last c, rows.getLast? = some last ∧
      Cursor.ofRow o last = .ok c ∧ position = some c := by
  unfold lastPosition at h
  split at h
  · rename_i hlast
    cases h
    exact Or.inl ⟨List.getLast?_eq_none_iff.mp hlast, rfl⟩
  · rename_i last hlast
    split at h
    · rename_i c hc
      cases h
      exact Or.inr ⟨last, c, hlast, hc, rfl⟩
    · cases h
    · cases h

theorem lastPosition_of_take {r : Reader} {answered : List Row} {taken : FetchedPage × Reader}
    (h : r.take answered = .ok taken) :
    ∃ last, lastPosition r.page.order (answered.take r.page.size.toNat) = .ok last := by
  cases hl : lastPosition r.page.order (answered.take r.page.size.toNat) with
  | ok last => exact ⟨last, rfl⟩
  | error e =>
    simp only [take, hl, bind, Except.bind] at h
    cases h

theorem take_moves {r r' : Reader} {answered : List Row} {fetched : FetchedPage}
    (h : r.take answered = .ok (fetched, r')) : r.Moves answered fetched r' := by
  obtain ⟨position, hl⟩ := lastPosition_of_take h
  simp only [take, hl, bind, Except.bind] at h
  cases h
  refine ⟨rfl, ?_, ?_, ?_⟩
  · rw [← decide_not]
    exact decide_eq_decide.mpr Nat.not_lt
  · unfold isExhausted
    by_cases hmore : r.page.size.toNat < answered.length <;> simp [hmore]
  · rcases lastPosition_eq_ok hl with ⟨hnil, rfl⟩ | ⟨last, c, hlast, hc, rfl⟩
    · exact Or.inl ⟨hnil, rfl⟩
    · exact Or.inr ⟨last, c, hlast, hc, rfl⟩

/-- Nothing of the page changes but its position. -/
theorem Moves.page_eq {r r' : Reader} {answered : List Row} {fetched : FetchedPage}
    (hm : r.Moves answered fetched r') : r'.page = { r.page with position := r'.position } := by
  rcases hm.page with ⟨-, hpage⟩ | ⟨last, c, -, -, hpage⟩
  · rw [position, hpage]
  · rw [position, hpage]
    rfl

theorem Moves.order {r r' : Reader} {answered : List Row} {fetched : FetchedPage}
    (hm : r.Moves answered fetched r') : r'.page.order = r.page.order := by
  rw [hm.page_eq]

/-- A call on an exhausted reader. -/
theorem next_of_exhausted {σ : Type} {source : Source σ} {r : Reader} {s : σ}
    (he : r.isExhausted = true) : r.next source s = (.ok (.exhausted r.position), r, s) := by
  simp only [next, call_of_exhausted he]

theorem next_of_error {σ : Type} {source : Source σ} {r : Reader} {s : σ} {e : CursorError}
    (he : r.isExhausted = false) (hq : r.request = .error e) :
    r.next source s = (.error (.cursor e), r, s) := by
  simp only [next, call_of_error he hq]

theorem next_of_request {σ : Type} {source : Source σ} {r : Reader} {s : σ} {q : Request}
    (he : r.isExhausted = false) (hq : r.request = .ok q) :
    r.next source s = ((Pending.settle ⟨r.dropped, r.state, q⟩ (source s q).1).1,
      (Pending.settle ⟨r.dropped, r.state, q⟩ (source s q).1).2, (source s q).2) := by
  simp only [next, call_of_request he hq]

theorem settle_eq_ok {r r' : Reader} {q : Request} {answer : Answer} {fetched : FetchedPage}
    (h : Pending.settle ⟨r.dropped, r.state, q⟩ answer = (.ok fetched, r')) :
    ∃ rows, answer = .ok rows ∧ r.dropped.take rows = .ok (fetched, r') := by
  cases answer with
  | error e => cases h
  | ok rows =>
    cases htake : r.dropped.take rows with
    | error e =>
      simp only [Pending.settle, htake] at h
      cases h
    | ok taken =>
      simp only [Pending.settle, htake] at h
      cases h
      exact ⟨rows, rfl, htake⟩

theorem next_cases {σ : Type} {source : Source σ} {r r' : Reader} {s s' : σ}
    {fetched : FetchedPage} (h : r.next source s = (.ok fetched, r', s')) :
    r.isExhausted = true ∧ fetched = .exhausted r.position ∧ r' = r ∧ s' = s ∨
    ∃ q rows, r.isExhausted = false ∧ r.request = .ok q ∧ source s q = (.ok rows, s') ∧
      r.Moves rows fetched r' := by
  cases he : r.isExhausted with
  | true =>
    rw [next_of_exhausted he] at h
    cases h
    exact Or.inl ⟨rfl, rfl, rfl, rfl⟩
  | false =>
    cases hq : r.request with
    | error e =>
      rw [next_of_error he hq] at h
      cases h
    | ok q =>
      rw [next_of_request he hq] at h
      obtain ⟨hresult, hrest⟩ := Prod.mk.inj h
      obtain ⟨hreader, hstate⟩ := Prod.mk.inj hrest
      obtain ⟨rows, hanswer, htake⟩ := settle_eq_ok (Prod.ext hresult hreader)
      exact Or.inr ⟨q, rows, rfl, rfl, Prod.ext hanswer hstate, { take_moves htake with }⟩

/-- A reader stands where it stood or behind a row that it returned. -/
theorem next_position {σ : Type} {source : Source σ} {r r' : Reader} {s s' : σ}
    {fetched : FetchedPage} (h : r.next source s = (.ok fetched, r', s')) :
    ∀ c ∈ r'.position, c ∈ r.position ∨
      ∃ row ∈ fetched.rows, Cursor.ofRow r.page.order row = .ok c := by
  intro c hc
  rcases next_cases h with ⟨-, -, rfl, -⟩ | ⟨q, answered, -, -, -, hm⟩
  · exact Or.inl hc
  · rcases hm.page with ⟨-, hpage⟩ | ⟨last, d, hlast, hrow, hpage⟩
    · rw [position, hpage] at hc
      exact Or.inl hc
    · rw [position, hpage] at hc
      rw [Page.eq_of_mem_after hc]
      exact Or.inr ⟨last, List.mem_of_getLast? hlast, hrow⟩

end Reader

end Keyset
