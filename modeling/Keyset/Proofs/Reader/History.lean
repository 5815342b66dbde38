import Keyset.Proofs.Reader.Moves
import Keyset.Proofs.Reader.Step

/-! # What a reader keeps over any source

A source may answer with any rows, more than asked for or in no order, and may
fail at any call. The history of a reader tells for each call where the reader
stood, what it asked and what it returned (`history`). A call finds the reader
exhausted, leaves it as it was, or moves it to the last row of the page that it
returns (`exchange_cases`). So all along a history the reader stands at the last
row ever returned, with its ordering, size and policy, and is exhausted exactly
if a page told that the end is reached (`Keeps`); and up to there every page is
what the answer to its request makes it (`Exchange.InOrder`). -/

namespace Keyset

/-- A source that keeps the requests it got and its answers. -/
def Source.recorded {σ : Type} (source : Source σ) : Source (σ × List (Request × Answer)) :=
  fun (s, log) q => ((source s q).1, (source s q).2, log ++ [(q, (source s q).1)])

/-- A source that has its answers ready, one after the other, and no rows in the end. -/
def Source.script : Source (List Answer)
  | [], _ => (.ok [], [])
  | answer :: answers, _ => (answer, answers)

/-- A call that was completed. -/
structure Exchange where
  /-- Where the reader stood. -/
  position : Option Cursor
  /-- What it asked, and the answers. -/
  asked : List (Request × Answer)
  result : Except FetchError FetchedPage

namespace Exchange

/-- The rows returned. -/
def rows (x : Exchange) : List Row :=
  match x.result with
  | .ok fetched => fetched.rows
  | .error _ => []

/-- A page was returned, and it told that the end is reached. -/
def reachedEnd (x : Exchange) : Bool :=
  match x.result with
  | .ok fetched => fetched.reachedEnd
  | .error _ => false

/-- A call on a reader that is exhausted at a position. -/
def idle (position : Option Cursor) : Exchange := ⟨position, [], .ok (.exhausted position)⟩

end Exchange

/-- A page made of the rows that a source has answered with. -/
structure FetchedPage.Answers (fetched : FetchedPage) (size : Nat) (position : Option Cursor)
    (answered : List Row) : Prop where
  rowCount : fetched.rowCount.toNat = fetched.rows.length
  length : fetched.rows.length = min size answered.length
  rows : fetched.rows = answered.take fetched.rowCount.toNat
  reachedEnd : fetched.reachedEnd = decide (answered.length ≤ size)
  next : fetched.next.isNone = fetched.reachedEnd
  position : fetched.position = position

/-- What a call may be behind the calls before it. Once a page has told that the end is reached, a
call asks nothing and returns an empty page. Up to there it asks once, for one row more than a page
has, and makes its page of the answer; or it returns an error and has asked once at most. -/
def Exchange.InOrder (page : Page) (before : List Exchange) (x : Exchange) : Prop :=
  if before.any (·.reachedEnd) then x = .idle x.position
  else match x.result with
    | .error _ => x.asked.length ≤ 1
    | .ok fetched => ∃ q answered, x.asked = [(q, .ok answered)] ∧ q.order = page.order ∧
        q.limit.toNat = page.size.toNat + 1 ∧
        fetched.Answers page.size.toNat x.position answered

namespace Reader

/-- A reader after some calls, and what they were. -/
structure History (σ : Type) where
  past : List Exchange
  reader : Reader
  source : σ

variable {σ : Type}

/-- One call, and the reader and the source behind it. -/
def exchange (source : Source σ) (r : Reader) (s : σ) : Exchange × Reader × σ :=
  let (result, after, s, asked) := r.next source.recorded (s, [])
  (⟨r.position, asked, result⟩, after, s)

/-- The first calls of a reader on a source. -/
def history (source : Source σ) (r : Reader) (s : σ) : Nat → History σ
  | 0 => ⟨[], r, s⟩
  | calls + 1 =>
    let h := history source r s calls
    let (x, after, s) := h.reader.exchange source h.source
    ⟨h.past ++ [x], after, s⟩

variable {source : Source σ} {r : Reader} {s : σ}

/-! ## One call -/

theorem exchange_of_exhausted (he : r.isExhausted = true) :
    r.exchange source s = (.idle r.position, r, s) := by
  simp only [exchange, next_of_exhausted he, Exchange.idle]

theorem exchange_of_error {e : CursorError} (he : r.isExhausted = false)
    (hq : r.request = .error e) :
    r.exchange source s = (⟨r.position, [], .error (.cursor e)⟩, r, s) := by
  simp only [exchange, next_of_error he hq]

theorem exchange_of_request {q : Request} (he : r.isExhausted = false) (hq : r.request = .ok q) :
    r.exchange source s =
      (⟨r.position, [(q, (source s q).1)],
        (Pending.settle ⟨r.dropped, r.state, q⟩ (source s q).1).1⟩,
        (Pending.settle ⟨r.dropped, r.state, q⟩ (source s q).1).2, (source s q).2) := by
  simp only [exchange, next_of_request he hq, Source.recorded, List.nil_append]

/-- Keeping what is asked does not change what a call does. -/
theorem exchange_eq_next (source : Source σ) (r : Reader) (s : σ) :
    ((r.exchange source s).1.result, (r.exchange source s).2) = r.next source s := by
  cases he : r.isExhausted with
  | true => rw [exchange_of_exhausted he, next_of_exhausted he]; rfl
  | false =>
    cases hq : r.request with
    | error e => rw [exchange_of_error he hq, next_of_error he hq]
    | ok q => rw [exchange_of_request he hq, next_of_request he hq]

/-- A call finds the reader exhausted, fails and leaves the reader as it was, or takes a page from
the answer to its request. -/
theorem exchange_cases (source : Source σ) (r : Reader) (s : σ) :
    (r.isExhausted = true ∧ r.exchange source s = (.idle r.position, r, s)) ∨
    (r.isExhausted = false ∧ ∃ asked e s', asked.length ≤ 1 ∧
      r.exchange source s = (⟨r.position, asked, .error e⟩, r, s')) ∨
    (r.isExhausted = false ∧ ∃ q answered fetched r' s', r.request = .ok q ∧
      r.exchange source s = (⟨r.position, [(q, .ok answered)], .ok fetched⟩, r', s') ∧
      r.dropped.take answered = .ok (fetched, r')) := by
  cases he : r.isExhausted with
  | true => exact Or.inl ⟨rfl, exchange_of_exhausted he⟩
  | false =>
    right
    cases hq : r.request with
    | error e => exact Or.inl ⟨rfl, [], _, s, Nat.zero_le 1, exchange_of_error he hq⟩
    | ok q =>
      rw [exchange_of_request he hq]
      rcases r.settle_cases q (source s q).1 with ⟨fetched, r', hs⟩ | ⟨e, hs, -⟩
      · obtain ⟨answered, hanswer, htake⟩ := settle_eq_ok hs
        rw [hs, hanswer]
        exact Or.inr ⟨rfl, q, answered, fetched, r', _, rfl, rfl, htake⟩
      · rw [hs]
        exact Or.inl ⟨rfl, [(q, (source s q).1)], e, _, Nat.le_refl 1, rfl⟩

theorem request_asks {q : Request} (h : r.request = .ok q) :
    q.order = r.page.order ∧ q.limit = r.page.limit := by
  cases hc : r.page.lowerBound with
  | error e =>
    simp only [request, hc, bind, Except.bind] at h
    cases h
  | ok condition =>
    simp only [request, hc, bind, Except.bind] at h
    cases h
    exact ⟨rfl, rfl⟩

theorem take_answers {r' : Reader} {answered : List Row} {fetched : FetchedPage}
    (hs : 1 ≤ r.page.size.toNat) (h : r.take answered = .ok (fetched, r')) :
    fetched.Answers r.page.size.toNat r.position answered := by
  obtain ⟨last, hl⟩ := lastPosition_of_take h
  have hend := (take_moves h).reachedEnd
  rw [take_eq hl] at h
  cases h
  have hcount : (UInt64.ofNat (answered.take r.page.size.toNat).length).toNat =
      (answered.take r.page.size.toNat).length := by
    have hlt := r.page.size.toNat_lt_size
    refine UInt64.toNat_ofNat_of_lt' ?_
    rw [List.length_take]
    omega
  exact {
    rowCount := hcount
    length := List.length_take
    rows := by
      show answered.take _ = answered.take (UInt64.toNat _)
      rw [hcount, List.length_take, List.take_eq_take_min]
    reachedEnd := hend
    next := by
      show (if _ then _ else _ : Option Cursor).isNone = !decide _
      by_cases hmore : r.page.size.toNat < answered.length
      · -- a page that is followed by another has a row, since it may have one
        rw [if_pos hmore, decide_eq_true hmore]
        rcases lastPosition_eq_ok hl with ⟨hnil, -⟩ | ⟨row, c, -, -, rfl⟩
        · have hlength := congrArg List.length hnil
          rw [List.length_take, List.length_nil] at hlength
          omega
        · rfl
      · rw [if_neg hmore, decide_eq_false hmore]
        rfl
    position := rfl }

/-! ## Any number of calls -/

/-- What calls on a source have left of the page that the reader started from. -/
structure Keeps (page : Page) (past : List Exchange) (r : Reader) : Prop where
  order : r.page.order = page.order
  requested : r.page.requested = page.requested
  policy : r.page.policy = page.policy
  /-- The reader stands at the last row ever returned, or where it started. -/
  position : match (past.flatMap (·.rows)).getLast? with
    | none => r.position = page.position
    | some last => ∃ c, Cursor.ofRow page.order last = .ok c ∧ r.position = some c
  exhausted : r.state = .exhausted ↔ ∃ x ∈ past, x.reachedEnd = true

theorem exists_reachedEnd_concat {past : List Exchange} {x : Exchange} :
    (∃ y ∈ past ++ [x], y.reachedEnd = true) ↔
      (∃ y ∈ past, y.reachedEnd = true) ∨ x.reachedEnd = true := by
  simp only [List.mem_append, List.mem_singleton, or_and_right, exists_or, exists_eq_left]

theorem isExhausted_iff : r.isExhausted = true ↔ r.state = .exhausted := decide_eq_true_iff

namespace Keeps

variable {page : Page} {past : List Exchange}

theorem start (page : Page) : Keeps page [] ⟨page, .ready, 0⟩ where
  order := rfl
  requested := rfl
  policy := rfl
  position := rfl
  exhausted := by simp

theorem size (h : Keeps page past r) : r.page.size = page.size := by
  rw [Page.size, Page.size, h.requested, h.policy]

/-- A call that returns no rows and leaves the reader as it was. -/
theorem stay (h : Keeps page past r) {x : Exchange} (hrows : x.rows = [])
    (hend : x.reachedEnd = true → r.state = .exhausted) : Keeps page (past ++ [x]) r where
  order := h.order
  requested := h.requested
  policy := h.policy
  position := by
    rw [List.flatMap_append, List.flatMap_singleton, hrows, List.append_nil]
    exact h.position
  exhausted := by
    rw [exists_reachedEnd_concat, ← h.exhausted]
    exact (or_iff_left_of_imp hend).symm

/-- A call that takes its page from an answer. -/
theorem move (h : Keeps page past r) {x : Exchange} {r' : Reader} {answered : List Row}
    {fetched : FetchedPage} (he : r.isExhausted = false) (hresult : x.result = .ok fetched)
    (hm : r.Moves answered fetched r') : Keeps page (past ++ [x]) r' := by
  have hrows : x.rows = fetched.rows := by rw [Exchange.rows, hresult]
  have hend : x.reachedEnd = fetched.reachedEnd := by rw [Exchange.reachedEnd, hresult]
  have hnot : ¬ ∃ y ∈ past, y.reachedEnd = true := by
    rw [← h.exhausted, ← isExhausted_iff, he]
    exact Bool.false_ne_true
  exact {
    order := hm.order.trans h.order
    requested := by rw [hm.page_eq, ← h.requested]
    policy := by rw [hm.page_eq, ← h.policy]
    position := by
      rw [List.flatMap_append, List.flatMap_singleton, hrows]
      rcases hm.page with ⟨hnil, hpage⟩ | ⟨last, c, hlast, hc, hpage⟩
      · rw [hnil, List.append_nil, Reader.position, hpage]
        exact h.position
      · rw [List.getLast?_append, hlast, Option.some_or]
        refine ⟨c, h.order ▸ hc, ?_⟩
        rw [Reader.position, hpage]
        simp [Page.after, Cursor.isEmpty_ofRow hc]
    exhausted := by
      rw [exists_reachedEnd_concat, ← isExhausted_iff, hm.exhausted, ← hend]
      exact (or_iff_right hnot).symm }

/-- One call more. -/
theorem exchange (h : Keeps page past r) (source : Source σ) (s : σ) :
    Keeps page (past ++ [(r.exchange source s).1]) (r.exchange source s).2.1 := by
  rcases exchange_cases source r s with ⟨he, hx⟩ | ⟨he, asked, e, s', hasked, hx⟩ |
    ⟨he, q, answered, fetched, r', s', hq, hx, htake⟩
  · rw [hx]
    exact h.stay rfl fun _ => isExhausted_iff.mp he
  · rw [hx]
    exact h.stay rfl fun hreached => by cases hreached
  · rw [hx]
    exact h.move he rfl { take_moves htake with }

/-- The reader is exhausted exactly if a call may ask nothing more. -/
theorem any_reachedEnd (h : Keeps page past r) : past.any (·.reachedEnd) = r.isExhausted := by
  rw [Bool.eq_iff_iff, List.any_eq_true, isExhausted_iff, h.exhausted]

theorem inOrder (h : Keeps page past r) (size_pos : 1 ≤ page.size.toNat)
    (size_lt : page.size.toNat + 1 < UInt64.size) (source : Source σ) (s : σ) :
    (r.exchange source s).1.InOrder page past := by
  rw [Exchange.InOrder, h.any_reachedEnd]
  rcases exchange_cases source r s with ⟨he, hx⟩ | ⟨he, asked, e, s', hasked, hx⟩ |
    ⟨he, q, answered, fetched, r', s', hq, hx, htake⟩
  · rw [hx, if_pos he]
    rfl
  · rw [hx, if_neg (by rw [he]; exact Bool.false_ne_true)]
    exact hasked
  · rw [hx, if_neg (by rw [he]; exact Bool.false_ne_true)]
    have hsize : r.dropped.page.size = page.size := h.size
    obtain ⟨horder, hlimit⟩ := request_asks hq
    have hanswers := take_answers (by rw [hsize]; exact size_pos) htake
    rw [hsize] at hanswers
    refine ⟨q, answered, rfl, horder.trans h.order, ?_, hanswers⟩
    rw [hlimit, ← h.size, Page.limit_eq_succ_iff, h.size]
    exact size_lt

end Keeps

theorem keeps_history (source : Source σ) (s : σ) {page : Page} (h : Reader.start page = .ok r)
    (calls : Nat) : Keeps page (r.history source s calls).past (r.history source s calls).reader := by
  rw [(start_eq_ok_iff.mp h).1]
  induction calls with
  | zero => exact .start page
  | succ calls ih => exact ih.exchange source _

theorem inOrder_history (source : Source σ) (s : σ) {page : Page} (h : Reader.start page = .ok r)
    (size_pos : 1 ≤ page.size.toNat) (size_lt : page.size.toNat + 1 < UInt64.size) (calls : Nat)
    {before : List Exchange} {x : Exchange}
    (hx : before ++ [x] <+: (r.history source s calls).past) : x.InOrder page before := by
  induction calls with
  | zero => exact absurd (List.prefix_nil.mp hx) (List.append_ne_nil_of_right_ne_nil before nofun)
  | succ calls ih =>
    rcases List.prefix_concat_iff.mp hx with hlast | hearlier
    · obtain ⟨hbefore, hx⟩ := List.append_inj' hlast rfl
      rw [hbefore, List.singleton_inj.mp hx]
      exact (keeps_history source s h calls).inOrder size_pos size_lt source _
    · exact ih hearlier

/-- Calls on an exhausted reader. -/
theorem history_of_exhausted {past : List Exchange} {calls : Nat} {r₀ : Reader} {s₀ : σ}
    (h : r₀.history source s₀ calls = ⟨past, r, s⟩) (he : r.state = .exhausted) (more : Nat) :
    r₀.history source s₀ (calls + more) =
      ⟨past ++ List.replicate more (.idle r.position), r, s⟩ := by
  induction more with
  | zero => rw [List.replicate_zero, List.append_nil]; exact h
  | succ more ih =>
    rw [← Nat.add_assoc, history, ih]
    simp only [exchange_of_exhausted (isExhausted_iff.mpr he), List.append_assoc,
      List.replicate_succ']

/-- **What a reader keeps.** Let a reader start from a page that may have a row, and be called any
number of times on any source. Until a page tells that the end is reached, every page is made of an
answer: it has the first rows of it, as many as it counts and no more than its size; it tells that
the end is reached, and names no next position, exactly if the answer had no more rows than that,
and it tells where the reader stood. The reader stands at the last row ever returned, or where it
started, and keeps its ordering, size and policy. It is exhausted exactly if a page told that the
end is reached; then it asks nothing more and returns empty pages that tell where it stands. -/
theorem history_keeps (source : Source σ) (s : σ) (page : Page) (reader : Reader)
    (accepted : Reader.start page = .ok reader) (size_pos : 1 ≤ page.size.toNat)
    (size_lt : page.size.toNat + 1 < UInt64.size) (calls : Nat) :
    ∃ past r s', reader.history source s calls = ⟨past, r, s'⟩ ∧ Keeps page past r ∧
      (∀ before x, before ++ [x] <+: past → x.InOrder page before) ∧
      (r.state = .exhausted → ∀ more, reader.history source s (calls + more) =
        ⟨past ++ List.replicate more (.idle r.position), r, s'⟩) :=
  ⟨_, _, _, rfl, keeps_history source s accepted calls,
    fun _ _ => inOrder_history source s accepted size_pos size_lt calls,
    fun he more => history_of_exhausted rfl he more⟩

/-- A source answers with more rows than were asked for, then fails, then has no rows. The first
page has two of the rows, the second call fails, and the third finds the end, behind which nothing
is asked. -/
theorem history_ranking : ∃ past r s', Reader.history Source.script
      ⟨(Page.first Post.ranking).withSize 2, .ready, 0⟩
      [.ok Post.four.rows, .error FlakyTable.outage] 3 = ⟨past, r, s'⟩ ∧
    past.map (fun x => (x.rows.map Post.id?, x.asked.length, x.reachedEnd)) =
      [([some 1, some 2], 1, false), ([], 1, false), ([], 1, true)] ∧
    Keeps ((Page.first Post.ranking).withSize 2) past r ∧
    (∀ before x, before ++ [x] <+: past →
      x.InOrder ((Page.first Post.ranking).withSize 2) before) ∧
    r.state = .exhausted ∧
    ∀ more, Reader.history Source.script ⟨(Page.first Post.ranking).withSize 2, .ready, 0⟩
      [.ok Post.four.rows, .error FlakyTable.outage] (3 + more) =
        ⟨past ++ List.replicate more (.idle r.position), r, s'⟩ := by
  obtain ⟨past, r, s', hpast, hkeeps, horder, hend⟩ :=
    history_keeps Source.script [.ok Post.four.rows, .error FlakyTable.outage]
      ((Page.first Post.ranking).withSize 2) _ rfl (by decide) (by decide) 3
  have hexchanges : _ = past := congrArg History.past hpast
  have hreader : _ = r := congrArg History.reader hpast
  have hexhausted : r.state = .exhausted := by
    rw [← hreader]
    decide
  refine ⟨past, r, s', hpast, ?_, hkeeps, horder, hexhausted, hend hexhausted⟩
  rw [← hexchanges]
  decide

end Reader

end Keyset
