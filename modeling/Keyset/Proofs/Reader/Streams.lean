import Keyset.Proofs.Reader.Covers
import Keyset.Proofs.Reader.History

/-! # Walks yield what calls return

A walk and whoever calls a reader drive one machine in two ways. A walk looks at
the reader before it calls it and stops at a page without rows; a caller goes by
what a page tells of the end and by the first error. Where a page may have a row,
only the last one can be without any, so both make the same calls, and the walk
yields what these returned but for an empty page in the end (`pages_recorded`).
The rows of a walk can also be drawn one by one, and a page is called for only
when the one before is used up; then the rows of the pages come in order, and the
error behind them if there is one (`drawn_eq`). -/

namespace Keyset

/-! ## Calls up to the end -/

namespace Exchange

/-- Nothing is called for behind an error, nor behind a page that tells of the end. -/
def isFinal (x : Exchange) : Bool :=
  match x.result with
  | .ok fetched => fetched.reachedEnd
  | .error _ => true

def error? (x : Exchange) : Option FetchError :=
  match x.result with
  | .ok _ => none
  | .error e => some e

/-- The calls up to the first final one. -/
def untilFinal : List Exchange → List Exchange
  | [] => []
  | x :: xs => if x.isFinal then [x] else x :: untilFinal xs

/-- Calls behind a final one do not count. -/
theorem untilFinal_of_prefix {past later : List Exchange} (h : past <+: later)
    (hfinal : ∃ x ∈ past, x.isFinal = true) : untilFinal later = untilFinal past := by
  induction past generalizing later with
  | nil =>
    obtain ⟨x, hx, -⟩ := hfinal
    cases hx
  | cons x xs ih =>
    obtain ⟨ys, rfl⟩ := h
    rw [List.cons_append, untilFinal, untilFinal]
    split
    · rfl
    · rename_i hx
      obtain ⟨y, hy, hyfinal⟩ := hfinal
      rcases List.mem_cons.mp hy with rfl | hy
      · exact absurd hyfinal hx
      · rw [ih (List.prefix_append xs ys) ⟨y, hy, hyfinal⟩]

end Exchange

namespace Reader

variable {σ : Type} {source : Source σ} {r r' : Reader} {s s' : σ} {fetched : FetchedPage}

/-- The history of a reader begins with its first call. -/
theorem history_succ (source : Source σ) (r : Reader) (s : σ) (calls : Nat) :
    r.history source s (calls + 1) =
      let (x, r', s') := r.exchange source s
      let h := r'.history source s' calls
      ⟨x :: h.past, h.reader, h.source⟩ := by
  induction calls with
  | zero => rfl
  | succ calls ih =>
    rw [history, ih]
    rfl

theorem history_prefix (source : Source σ) (r : Reader) (s : σ) (calls more : Nat) :
    (r.history source s calls).past <+: (r.history source s (calls + more)).past := by
  induction more with
  | zero => exact List.prefix_rfl
  | succ more ih => exact ih.trans (List.prefix_append _ _)

/-- A reader that is called no further than the first final call has made just these calls. -/
theorem history_untilFinal (source : Source σ) (r : Reader) (s : σ) (steps : Nat) :
    let calls := Exchange.untilFinal (r.history source s steps).past
    (r.history source s calls.length).past = calls := by
  induction steps generalizing r s with
  | zero => rfl
  | succ steps ih =>
    simp only [history_succ, Exchange.untilFinal]
    split
    · rfl
    · simp only [List.length_cons, history_succ, ih]

/-- A source that is recorded answers alike, and keeps what was asked. -/
theorem exchange_recorded (source : Source σ) (r : Reader) (s : σ) (log : List (Request × Answer)) :
    r.exchange source.recorded (s, log) =
      let (x, r', s') := r.exchange source s
      (x, r', s', log ++ x.asked) := by
  cases he : r.isExhausted with
  | true => simp only [exchange_of_exhausted he, Exchange.idle, List.append_nil]
  | false =>
    cases hq : r.request with
    | error e => simp only [exchange_of_error he hq, List.append_nil]
    | ok q => simp only [exchange_of_request he hq, Source.recorded]

theorem history_recorded (source : Source σ) (r : Reader) (s : σ) (calls : Nat) :
    r.history source.recorded (s, []) calls =
      let h := r.history source s calls
      ⟨h.past, h.reader, h.source, h.past.flatMap (·.asked)⟩ := by
  induction calls with
  | zero => rfl
  | succ calls ih =>
    rw [history, ih]
    simp only [exchange_recorded, history, List.flatMap_append, List.flatMap_singleton]

theorem next_of_exchange {x : Exchange} (h : r.exchange source s = (x, r', s')) :
    r.next source s = (x.result, r', s') := by
  rw [← exchange_eq_next, h]

/-- A reader is exhausted behind a page that tells of the end, and behind no other. -/
theorem next_isExhausted (h : r.next source s = (.ok fetched, r', s')) :
    r'.isExhausted = fetched.reachedEnd := by
  rcases next_cases h with ⟨he, rfl, rfl, -⟩ | ⟨q, answered, -, -, -, hm⟩
  · exact he
  · exact hm.exhausted

/-- Where a page may have a row, one without any tells of the end. -/
theorem next_reachedEnd (size_pos : 1 ≤ r.page.size.toNat)
    (h : r.next source s = (.ok fetched, r', s')) (hempty : fetched.isEmpty = true) :
    fetched.reachedEnd = true := by
  rcases next_cases h with ⟨-, rfl, -, -⟩ | ⟨q, answered, -, -, -, hm⟩
  · rfl
  · have hnil : answered.take r.page.size.toNat = [] :=
      hm.rows.symm.trans (List.isEmpty_iff.mp hempty)
    have hnone : answered = [] :=
      (List.take_eq_nil_iff.mp hnil).resolve_left (Nat.one_le_iff_ne_zero.mp size_pos)
    rw [hm.reachedEnd, hnone]
    exact decide_eq_true (Nat.zero_le _)

end Reader

/-! ## Pages -/

namespace Walk

variable {σ : Type} {source : Source σ} {r : Reader} {s : σ}

/-- Results, but for a page without rows in the end. -/
def withoutEmptyEnd :
    List (Except FetchError FetchedPage) → List (Except FetchError FetchedPage)
  | [] => []
  | [.ok fetched] => if fetched.isEmpty then [] else [.ok fetched]
  | result :: results => result :: withoutEmptyEnd results

theorem withoutEmptyEnd_cons {fetched : FetchedPage} (h : fetched.isEmpty = false)
    (results : List (Except FetchError FetchedPage)) :
    withoutEmptyEnd (.ok fetched :: results) = .ok fetched :: withoutEmptyEnd results := by
  cases results with
  | nil => simp [withoutEmptyEnd, h]
  | cons => rfl

theorem pages_none (source : Source σ) (steps : Nat) (s : σ) :
    pages source steps none s = ([], s) := by
  cases steps <;> rfl

theorem pages_of_exhausted (he : r.isExhausted = true) (source : Source σ) (steps : Nat) (s : σ) :
    pages source steps (some r) s = ([], s) := by
  cases steps with
  | zero => rfl
  | succ steps => simp only [pages, next, he, if_true]

/-- What one call returns is yielded, and the walk goes on behind it unless the call is final. -/
theorem pages_succ (size_pos : 1 ≤ r.page.size.toNat) (source : Source σ) (steps : Nat) (s : σ) :
    pages source (steps + 1) (some r) s =
      let (x, r', s') := r.exchange source s
      if x.isFinal then (withoutEmptyEnd [x.result], s')
      else
        let (ps, s'') := pages source steps (some r') s'
        (x.result :: ps, s'') := by
  cases he : r.isExhausted with
  | true =>
    rw [pages_of_exhausted he, Reader.exchange_of_exhausted he]
    rfl
  | false =>
    rcases hx : r.exchange source s with ⟨⟨position, asked, result⟩, r', s'⟩
    have hnext := Reader.next_of_exchange hx
    cases result with
    | error e =>
      simp only [pages, next, he, hnext, pages_none, Exchange.isFinal, Bool.false_eq_true, if_false,
        if_true, withoutEmptyEnd]
    | ok fetched =>
      cases hempty : fetched.isEmpty with
      | true =>
        have hend := Reader.next_reachedEnd size_pos hnext hempty
        simp only [pages, next, he, hnext, hempty, Exchange.isFinal, hend, Bool.false_eq_true,
          if_false, if_true, withoutEmptyEnd]
      | false =>
        cases hend : fetched.reachedEnd with
        | true =>
          have he' := (Reader.next_isExhausted hnext).trans hend
          simp only [pages, next, he, hnext, hempty, pages_of_exhausted he', Exchange.isFinal, hend,
            Bool.false_eq_true, if_false, if_true, withoutEmptyEnd]
        | false =>
          simp only [pages, next, he, hnext, hempty, Exchange.isFinal, hend, Bool.false_eq_true,
            if_false]

/-- The pages of a walk are what calls return up to the end or an error, but for an empty page. -/
theorem pages_history (size_pos : 1 ≤ r.page.size.toNat) (source : Source σ) (steps : Nat)
    (s : σ) :
    let calls := Exchange.untilFinal (r.history source s steps).past
    pages source steps (some r) s =
      (withoutEmptyEnd (calls.map (·.result)), (r.history source s calls.length).source) := by
  induction steps generalizing r s with
  | zero => rfl
  | succ steps ih =>
    simp only [pages_succ size_pos, Reader.history_succ, Exchange.untilFinal]
    rcases hx : r.exchange source s with ⟨⟨position, asked, result⟩, r', s'⟩
    have hnext := Reader.next_of_exchange hx
    cases hfinal : Exchange.isFinal ⟨position, asked, result⟩ with
    | true =>
      simp only [if_true, List.map_singleton, List.length_singleton, Reader.history_succ, hx]
      rfl
    | false =>
      -- behind a call that is not final the reader has the same size, and its page has a row
      cases result with
      | error e => cases hfinal
      | ok fetched =>
        have hempty : fetched.isEmpty = false := by
          refine Bool.eq_false_iff.mpr fun hempty => ?_
          have hend := Reader.next_reachedEnd size_pos hnext hempty
          exact Bool.false_ne_true (hfinal.symm.trans hend)
        have hsize : 1 ≤ r'.page.size.toNat := by
          rw [Reader.next_size hnext]
          exact size_pos
        simp only [ih hsize, Bool.false_eq_true, if_false, List.map_cons, List.length_cons,
          withoutEmptyEnd_cons hempty, Reader.history_succ, hx]

/-- A walk makes the calls up to the end or an error, and no more. -/
theorem pages_recorded (size_pos : 1 ≤ r.page.size.toNat) (source : Source σ) (steps : Nat)
    (s : σ) :
    let calls := Exchange.untilFinal (r.history source s steps).past
    pages source.recorded steps (some r) (s, []) =
      (withoutEmptyEnd (calls.map (·.result)), (r.history source s calls.length).source,
        calls.flatMap (·.asked)) := by
  intro calls
  have hpages := pages_history size_pos source.recorded steps (s, [])
  simp only [Reader.history_recorded, Reader.history_untilFinal] at hpages
  exact hpages

/-! ## Rows -/

theorem rows_cons (fetched : FetchedPage) (results : List (Except FetchError FetchedPage)) :
    rows (.ok fetched :: results) = fetched.rows.map .ok ++ rows results := rfl

theorem rows_withoutEmptyEnd (results : List (Except FetchError FetchedPage)) :
    rows (withoutEmptyEnd results) = rows results := by
  fun_induction withoutEmptyEnd results with
  | case1 => rfl
  | case2 fetched hempty =>
    have hnil : fetched.rows = [] := List.isEmpty_iff.mp hempty
    simp only [rows, List.flatMap_singleton, hnil, List.map_nil, List.flatMap_nil]
  | case3 => rfl
  | case4 result results _ ih =>
    rw [rows, List.flatMap_cons, ← rows, ih]
    rfl

/-- The rows that calls up to the first final one returned, then the error if that is one. -/
theorem rows_untilFinal (past : List Exchange) :
    let calls := Exchange.untilFinal past
    rows (calls.map (·.result)) =
      (calls.flatMap (·.rows)).map .ok ++ (calls.filterMap (·.error?)).map .error := by
  induction past with
  | nil => rfl
  | cons x xs ih =>
    rw [Exchange.untilFinal]
    obtain ⟨position, asked, result⟩ := x
    cases result with
    | error e => rfl
    | ok fetched =>
      split
      · simp [rows, Exchange.rows, Exchange.error?]
      · dsimp only at ih ⊢
        rw [List.map_cons, rows_cons, ih, List.flatMap_cons, List.map_append, List.append_assoc]
        rfl

/-- A page that a walk yields has a row. -/
theorem rows_ne_nil_of_next {w w' : Walk} {s s' : σ} {fetched : FetchedPage}
    (h : w.next source s = (some (.ok fetched), w', s')) : fetched.rows ≠ [] := by
  cases w with
  | none => cases h
  | some r =>
    rw [next] at h
    split at h
    · cases h
    · split at h
      · split at h
        · cases h
        · rename_i hempty
          cases h
          exact fun hnil => hempty (List.isEmpty_iff.mpr hnil)
      · cases h

/-- A walk that is drawn from row by row. -/
structure Feed where
  /-- The rows that are left of the page yielded last. -/
  rest : List Row
  walk : Walk

namespace Feed

/-- The next row. A page is called for when none is left of the one before. -/
def next (source : Source σ) : Feed → σ → Option (Except FetchError Row) × Feed × σ
  | ⟨row :: rest, w⟩, s => (some (.ok row), ⟨rest, w⟩, s)
  | ⟨[], w⟩, s =>
    match h : w.next source s with
    | (none, w', s') => (none, ⟨[], w'⟩, s')
    | (some (.error e), w', s') => (some (.error e), ⟨[], w'⟩, s')
    | (some (.ok fetched), w', s') =>
      (some (.ok (fetched.rows.head (rows_ne_nil_of_next h))), ⟨fetched.rows.tail, w'⟩, s')

/-- What drawing up to `count` times yields. -/
def drawn (source : Source σ) : Nat → Feed → σ → List (Except FetchError Row) × σ
  | 0, _, s => ([], s)
  | count + 1, f, s =>
    match f.next source s with
    | (none, _, s) => ([], s)
    | (some row, f, s) =>
      let (rows, s) := drawn source count f s
      (row :: rows, s)

theorem next_of_end {w w' : Walk} {s s' : σ} (h : w.next source s = (none, w', s')) :
    next source ⟨[], w⟩ s = (none, ⟨[], w'⟩, s') := by
  simp only [next]
  split <;> rename_i hw <;> cases hw.symm.trans h
  rfl

theorem next_of_error {w w' : Walk} {s s' : σ} {e : FetchError}
    (h : w.next source s = (some (.error e), w', s')) :
    next source ⟨[], w⟩ s = (some (.error e), ⟨[], w'⟩, s') := by
  simp only [next]
  split <;> rename_i hw <;> cases hw.symm.trans h
  rfl

theorem next_of_page {w w' : Walk} {s s' : σ} {fetched : FetchedPage}
    (h : w.next source s = (some (.ok fetched), w', s')) :
    next source ⟨[], w⟩ s =
      (some (.ok (fetched.rows.head (rows_ne_nil_of_next h))), ⟨fetched.rows.tail, w'⟩, s') := by
  simp only [next]
  split <;> rename_i hw <;> cases hw.symm.trans h
  rfl

/-- Drawing up to `count` times yields the first of all that there is, and has come as far as all
of it if there is less. -/
structure Draws (count : Nat) (drawn all : List (Except FetchError Row) × σ) : Prop where
  yielded : drawn.1 = all.1.take count
  source : drawn.1.length < count → drawn.2 = all.2

theorem Draws.cons {count : Nat} {rows all : List (Except FetchError Row)} {s s' : σ}
    (h : Draws count (rows, s) (all, s')) (row : Except FetchError Row) :
    Draws (count + 1) (row :: rows, s) (row :: all, s') where
  yielded := congrArg (List.cons row) h.yielded
  source := fun hlt => h.source (Nat.lt_of_succ_lt_succ hlt)

/-- What is drawn are the rows left, the rows of the pages to come, and the error behind them. -/
theorem drawn_eq (source : Source σ) {count steps : Nat} (hle : count ≤ steps) (rest : List Row)
    (w : Walk) (s : σ) :
    Draws count (drawn source count ⟨rest, w⟩ s)
      (rest.map Except.ok ++ rows (pages source steps w s).1, (pages source steps w s).2) := by
  induction count generalizing steps rest w s with
  | zero => exact ⟨rfl, fun h => absurd h (Nat.not_lt_zero _)⟩
  | succ count ih =>
    cases rest with
    | cons row rest => exact (ih (Nat.le_of_succ_le hle) rest w s).cons _
    | nil =>
      -- the walk takes a step, and yields no page that is without rows
      obtain ⟨steps, rfl⟩ : ∃ k, steps = k + 1 := ⟨steps - 1, by omega⟩
      have hle := Nat.le_of_succ_le_succ hle
      rcases hw : w.next source s with ⟨_ | (e | fetched), w', s'⟩
      · simp only [drawn, next_of_end hw, pages, hw]
        exact ⟨rfl, fun _ => rfl⟩
      · simp only [drawn, next_of_error hw, pages, hw]
        exact (ih hle [] w' s').cons _
      · obtain ⟨row, rest, hrows⟩ := List.exists_cons_of_ne_nil (rows_ne_nil_of_next hw)
        simp only [drawn, next_of_page hw, pages, hw, rows_cons, hrows, List.head_cons,
          List.tail_cons]
        exact (ih hle rest w' s').cons _

end Feed

/-! ## Pages and rows of one walk -/

/-- **A walk yields what calls return.** Let a reader whose pages may have a row stand anywhere, and
let it be called any number of times on any source. Its walk makes these calls, up to one that tells
of the end or fails. It yields the pages that they returned, but for a page without rows in the end,
then the error if there is one, and then nothing. What is drawn from it row by row are the rows of
these pages in order, and then the error. The walk of an exhausted reader yields nothing and asks
nothing. -/
theorem yields_calls (source : Source σ) (r : Reader) (s : σ) (size_pos : 1 ≤ r.page.size.toNat)
    (steps : Nat) :
    let calls := Exchange.untilFinal (r.history source s steps).past
    let results := withoutEmptyEnd (calls.map (·.result))
    let all := (calls.flatMap (·.rows)).map Except.ok ++ (calls.filterMap (·.error?)).map .error
    let reached := (r.history source s calls.length).source
    pages source.recorded steps (some r) (s, []) = (results, reached, calls.flatMap (·.asked)) ∧
    ((∃ x ∈ (r.history source s steps).past, x.isFinal = true) → ∀ more,
      pages source.recorded (steps + more) (some r) (s, []) =
        (results, reached, calls.flatMap (·.asked))) ∧
    rows results = all ∧
    (∀ count ≤ steps,
      Feed.Draws count (Feed.drawn source count ⟨[], some r⟩ s) (all, reached)) ∧
    (r.isExhausted = true → results = [] ∧ reached = s ∧ calls.flatMap (·.asked) = []) := by
  intro calls results all reached
  have hpages := pages_recorded size_pos source steps s
  have hrows : rows results = all :=
    (rows_withoutEmptyEnd _).trans (rows_untilFinal (r.history source s steps).past)
  refine ⟨hpages, ?_, hrows, ?_, ?_⟩
  · intro hfinal more
    have hcalls : Exchange.untilFinal (r.history source s (steps + more)).past = calls :=
      Exchange.untilFinal_of_prefix (Reader.history_prefix source r s steps more) hfinal
    rw [pages_recorded size_pos source (steps + more) s, hcalls]
  · intro count hle
    have hdrawn := Feed.drawn_eq source hle [] (some r) s
    rw [pages_history size_pos source steps s] at hdrawn
    rw [← hrows]
    exact hdrawn
  · intro he
    rw [pages_of_exhausted he, Prod.mk.injEq, Prod.mk.injEq] at hpages
    obtain ⟨hresults, hreached, hasked⟩ := hpages
    exact ⟨hresults.symm, hreached.symm, hasked.symm⟩

/-- Over a source that has more than a page of the ranking and then fails, the walk yields this page
and the error, and asks twice. -/
theorem yields_ranking :
    let r : Reader := ⟨(Page.first Post.ranking).withSize 2, .ready, 0⟩
    let answers : List Answer := [.ok Post.four.rows, .error FlakyTable.outage]
    1 ≤ r.page.size.toNat ∧
      (Feed.drawn Source.script 4 ⟨[], some r⟩ answers).1 =
        (Post.four.rows.take 2).map .ok ++
          [.error (.source (r.history Source.script answers 1).reader.position FlakyTable.outage)] ∧
      (pages Source.script.recorded 4 (some r) (answers, [])).2.2.length = 2 := by
  intro r answers
  have hsize : 1 ≤ r.page.size.toNat := by decide
  obtain ⟨hpages, -, -, hdrawn, -⟩ := yields_calls Source.script r answers hsize 4
  refine ⟨hsize, ?_, ?_⟩
  · rw [(hdrawn 4 (by decide)).yielded]
    decide +kernel
  · rw [hpages]
    decide

end Walk

end Keyset
