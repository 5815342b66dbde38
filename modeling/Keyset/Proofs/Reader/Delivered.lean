import Keyset.Proofs.Reader.History
import Keyset.Proofs.Reader.Loss

/-! # Which rows a call looks at

A source may answer with rows that lack a value that the ordering asks for. A
call makes a position of the last row that it keeps of an answer, and it finds out
about a missing value there and nowhere else (`take_checked`). So a row that lacks
a value is refused if it is the last one of its page and returned if it is not:
the last row of every page is complete, and pages of one row are so throughout. -/

namespace Keyset

open SortOrder

namespace Exchange

/-- What a call makes of the rows of an answer, up to the size of a page. -/
inductive Checked (o : SortOrder) (size : Nat) : Exchange → Prop
  /-- There was no answer with rows, and none is found wrong. -/
  | unanswered {x : Exchange} (asked : ∀ q answered, (q, Except.ok answered) ∉ x.asked)
      (rows : x.rows = []) (result : ∀ name, x.result ≠ .error (.invalidRow name)) :
      Checked o size x
  /-- The last row is complete, and all are returned. -/
  | delivered {position : Option Cursor} {q : Request} {answered : List Row}
      {fetched : FetchedPage} (rows : fetched.rows = answered.take size)
      (last : ∀ last, fetched.rows.getLast? = some last → o.Complete last) :
      Checked o size ⟨position, [(q, .ok answered)], .ok fetched⟩
  /-- The last row lacks a value that it must have, and the error tells which. -/
  | refused {position : Option Cursor} {q : Request} {answered : List Row} {last : Row}
      {column : SortColumn} (last_eq : (answered.take size).getLast? = some last)
      (key : column ∈ o.key) (nullable : column.nullable = false)
      (lacks : (last.value column.name).isNull = true) :
      Checked o size ⟨position, [(q, .ok answered)], .error (.invalidRow column.name)⟩

namespace Checked

variable {o : SortOrder} {size : Nat} {x : Exchange}

theorem last_complete (h : x.Checked o size) :
    ∀ last, x.rows.getLast? = some last → o.Complete last := by
  cases h with
  | unanswered asked rows result =>
    intro last hlast
    rw [rows] at hlast
    cases hlast
  | delivered rows last => exact last
  | refused last_eq key nullable lacks => exact fun last hlast => by cases hlast

/-- A page of one row has no row but the last. -/
theorem complete_of_one (h : x.Checked o 1) : ∀ row ∈ x.rows, o.Complete row := by
  have hlength : x.rows.length ≤ 1 := by
    cases h with
    | unanswered asked rows result => rw [rows]; exact Nat.zero_le 1
    | delivered rows last => exact (congrArg List.length rows).trans_le (List.length_take_le 1 _)
    | refused last_eq key nullable lacks => exact Nat.zero_le 1
  intro row hrow
  obtain ⟨last, hlast⟩ :=
    List.length_eq_one_iff.mp (Nat.le_antisymm hlength (List.length_pos_of_mem hrow))
  rw [hlast, List.mem_singleton] at hrow
  refine h.last_complete row ?_
  rw [hlast, hrow]
  rfl

/-- Rows that lack a value are returned exactly if the last row kept of the answer lacks none and
another one does. -/
theorem incomplete_iff (h : x.Checked o size) :
    (∃ row ∈ x.rows, ¬ o.Complete row) ↔ ∃ q answered, x.asked = [(q, .ok answered)] ∧
      (∀ last, (answered.take size).getLast? = some last → o.Complete last) ∧
      ∃ row ∈ answered.take size, ¬ o.Complete row := by
  cases h with
  | unanswered asked rows result =>
    constructor
    · rintro ⟨row, hrow, -⟩
      rw [rows] at hrow
      cases hrow
    · rintro ⟨q, answered, hasked, -⟩
      exact absurd (hasked ▸ List.mem_singleton_self _) (asked q answered)
  | @delivered position q answered fetched rows last =>
    constructor
    · rintro ⟨row, hrow, hlacks⟩
      have hrow : row ∈ fetched.rows := hrow
      rw [rows] at hrow last
      exact ⟨q, answered, rfl, last, row, hrow, hlacks⟩
    · rintro ⟨q', answered', hasked, -, row, hrow, hlacks⟩
      cases hasked
      rw [← rows] at hrow
      exact ⟨row, hrow, hlacks⟩
  | refused last_eq key nullable lacks =>
    constructor
    · rintro ⟨row, hrow, -⟩
      cases hrow
    · rintro ⟨q, answered, hasked, hlast, -⟩
      cases hasked
      have hthere := hlast _ last_eq _ key nullable
      rw [lacks] at hthere
      cases hthere

end Checked

end Exchange

namespace Reader

variable {σ : Type} {r : Reader}

/-- Taking a page from an answer succeeds if the last row is complete, else it names a value that
this row lacks. -/
theorem take_checked (r : Reader) (answered : List Row) :
    (∃ fetched r', r.take answered = .ok (fetched, r') ∧
      ∀ last, fetched.rows.getLast? = some last → r.page.order.Complete last) ∨
    ∃ last column, (answered.take r.page.size.toNat).getLast? = some last ∧
      column ∈ r.page.order.key ∧ column.nullable = false ∧
      (last.value column.name).isNull = true ∧
      r.take answered = .error (.invalidRow column.name) := by
  cases hl : lastPosition r.page.order (answered.take r.page.size.toNat) with
  | error e =>
    obtain ⟨last, column, hlast, hkey, rfl, hn, hnull⟩ := lastPosition_eq_error hl
    refine Or.inr ⟨last, column, hlast, hkey, hn, hnull, ?_⟩
    simp only [take, hl, bind, Except.bind]
  | ok position =>
    refine Or.inl ⟨_, _, take_eq hl, fun last hlast => ?_⟩
    rcases lastPosition_eq_ok hl with ⟨hnil, -⟩ | ⟨last', c, hlast', hc, -⟩
    · have hnone : (answered.take r.page.size.toNat).getLast? = some last := hlast
      rw [hnil] at hnone
      cases hnone
    · cases hlast.symm.trans hlast'
      exact Cursor.ofRow_eq_ok_iff.mp ⟨c, hc⟩

/-- One call. -/
theorem exchange_checked (source : Source σ) (r : Reader) (s : σ) :
    (r.exchange source s).1.Checked r.page.order r.page.size.toNat := by
  cases he : r.isExhausted with
  | true =>
    rw [exchange_of_exhausted he]
    exact .unanswered (fun _ _ h => by cases h) rfl fun _ h => by cases h
  | false =>
    cases hq : r.request with
    | error e =>
      rw [exchange_of_error he hq]
      exact .unanswered (fun _ _ h => by cases h) rfl fun _ h => by cases h
    | ok q =>
      rw [exchange_of_request he hq]
      cases (source s q).1 with
      | error e => exact .unanswered (fun _ _ h => by simp at h) rfl fun _ h => by cases h
      | ok answered =>
        rcases r.dropped.take_checked answered with ⟨fetched, r', htake, hlast⟩ |
          ⟨last, column, hlast, hkey, hn, hnull, htake⟩
        · simp only [Pending.settle, htake]
          exact .delivered (take_moves htake).rows hlast
        · simp only [Pending.settle, htake]
          exact .refused hlast hkey hn hnull

variable {source : Source σ} {s : σ}

/-- Nothing of the page changes but its position, and nothing at all if the call fails. -/
theorem exchange_page (source : Source σ) (r : Reader) (s : σ) :
    let (x, r', _) := r.exchange source s
    r'.page = { r.page with position := r'.position } ∧ (∀ e, x.result = .error e → r' = r) := by
  rcases exchange_cases source r s with ⟨-, hx⟩ | ⟨-, asked, e, s', -, hx⟩ |
    ⟨-, q, answered, fetched, r', s', -, hx, htake⟩
  · rw [hx]
    exact ⟨rfl, fun e he => by cases he⟩
  · rw [hx]
    exact ⟨rfl, fun e he => rfl⟩
  · rw [hx]
    exact ⟨(take_moves htake).page_eq, fun e he => by cases he⟩

theorem history_page (source : Source σ) (r : Reader) (s : σ) (calls : Nat) :
    let h := r.history source s calls
    h.reader.page = { r.page with position := h.reader.position } := by
  induction calls with
  | zero => rfl
  | succ calls ih =>
    refine (exchange_page source _ _).1.trans ?_
    rw [ih]
    rfl

/-- **Only the last row is looked at.** Call a reader any number of times on any source, and once
more. The call returns the first rows of its answer, as many as a page may have, if the last of
these is complete. If it is not, the call fails with an error that names a value which this row
lacks and must have, and the reader stays as it is. So the last row of every page is complete, and
so is every row where pages have one row. But a page has rows that lack values exactly if other rows
kept of its answer lack them than the last. -/
theorem calls_check_last (source : Source σ) (r : Reader) (s : σ) (calls : Nat) :
    let h := r.history source s calls
    let x := (h.reader.exchange source h.source).1
    let after := (h.reader.exchange source h.source).2.1
    let o := r.page.order
    let size := r.page.size.toNat
    x.Checked o size ∧ (∀ e, x.result = .error e → after = h.reader) ∧
    (∀ last, x.rows.getLast? = some last → o.Complete last) ∧
    (size = 1 → ∀ row ∈ x.rows, o.Complete row) ∧
    ((∃ row ∈ x.rows, ¬ o.Complete row) ↔ ∃ q answered, x.asked = [(q, .ok answered)] ∧
      (∀ last, (answered.take size).getLast? = some last → o.Complete last) ∧
      ∃ row ∈ answered.take size, ¬ o.Complete row) := by
  intro h x after o size
  have hchecked : x.Checked o size := by
    have hx := exchange_checked source h.reader h.source
    rw [history_page source r s calls] at hx
    exact hx
  refine ⟨hchecked, (exchange_page source h.reader h.source).2, hchecked.last_complete, ?_,
    hchecked.incomplete_iff⟩
  intro hone
  rw [hone] at hchecked
  exact hchecked.complete_of_one

/-- An answer that ends with a post without a score is refused for it, and the reader stays. -/
theorem unscored_refused :
    let r : Reader := ⟨(Page.first Post.byScore).withSize 2, .ready, 0⟩
    let answers : List Answer := [.ok [Post.scored 2 (some 2), Post.scored 3 none]]
    (r.exchange Source.script answers).1.result = .error (.invalidRow "score") ∧
      (r.exchange Source.script answers).2.1 = r := by
  intro r answers
  have hresult : (r.exchange Source.script answers).1.result = .error (.invalidRow "score") := rfl
  obtain ⟨-, hstays, -⟩ := calls_check_last Source.script r answers 0
  exact ⟨hresult, hstays _ hresult⟩

end Reader

/-- Posts by their score, the highest first, which they must have. -/
def Post.byScoreFalling : SortOrder :=
  ⟨[⟨"score", .descending, false, false, none⟩, ⟨"id", .ascending, false, true, none⟩], by decide⟩

/-- Asked for two of the three posts, a table returns the one without a score before another. -/
theorem Post.unscored_returned : ∃ fetched r',
    Reader.next MemoryTable.source ⟨(Page.first byScoreFalling).withSize 2, .ready, 0⟩ unscored =
      (.ok fetched, r', unscored) ∧
    fetched.rows = [scored 3 none, scored 2 (some 2)] ∧
    ¬ byScoreFalling.Complete (scored 3 none) := by
  have hplaced : ((Page.first byScoreFalling).withSize 2).WellPlaced :=
    Page.Sized.wellPlaced (by decide) (by decide) rfl
  have hfilter : unscored.rows.filter ((Page.first byScoreFalling).withSize 2).finds =
      unscored.rows := by decide
  have hsort : byScoreFalling.sort unscored.rows =
      [scored 3 none, scored 2 (some 2), scored 1 (some 1)] :=
    sort_eq_of_ascending (by decide) (by decide)
  have hkept : (byScoreFalling.sort (unscored.rows.filter
      ((Page.first byScoreFalling).withSize 2).finds)).take
        ((Page.first byScoreFalling).withSize 2).size.toNat =
      [scored 3 none, scored 2 (some 2)] := by
    rw [hfilter, hsort]
    decide
  rcases Reader.next_finds (r := ⟨(Page.first byScoreFalling).withSize 2, .ready, 0⟩) hplaced rfl
    unscored with ⟨fetched, r', hnext, hd⟩ | ⟨last, column, hlast, hc, hn, hnull, -⟩
  · exact ⟨fetched, r', hnext, hd.rows.trans hkept, by decide⟩
  · -- the last row kept is complete
    have hcomplete : byScoreFalling.Complete (scored 2 (some 2)) := by decide
    have hlast' := (congrArg List.getLast? hkept).symm.trans hlast
    cases hlast'
    exact absurd ((hcomplete column hc hn).symm.trans hnull) Bool.false_ne_true

end Keyset
