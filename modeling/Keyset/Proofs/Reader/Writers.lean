import Keyset.Proofs.Reader.Step

/-! # A traversal among writers

Rows may come and go between the calls of a reader. One call moves the reader
on, and what it leaves before its new position it returned or was not there
(`Advances`, `next_advances`). Two facts are kept by every event and so hold of
whole runs: what has been returned is ascending and before the position
(`Run.Ordered`), and what was stored all along has been returned or is still to
come (`Run.Follows`). -/

namespace Keyset

open SortOrder

namespace Reader

/-- What a call does that meets a table. -/
structure Advances (r : Reader) (t : MemoryTable) (fetched : FetchedPage) (r' : Reader) :
    Prop where
  wellPlaced : r'.page.WellPlaced
  order : r'.page.order = r.page.order
  ascending : r.page.order.Ascending fetched.rows
  stored : ∀ row ∈ fetched.rows, row ∈ t.rows ∧ r.page.ahead row = true
  /-- What is still ahead was ahead, and comes behind the rows returned. -/
  ahead : ∀ row, r'.page.ahead row = true →
    r.page.ahead row = true ∧ ∀ x ∈ fetched.rows, r.page.order.compareRows x row = .lt
  /-- No row is skipped. -/
  covers : r.isExhausted = false → ∀ row ∈ t.rows, r.page.ahead row = true →
    row ∈ fetched.rows ∨ r'.isExhausted = false ∧ r'.page.ahead row = true
  ended : r.isExhausted = true ∨ fetched.reachedEnd = true → r'.isExhausted = true

theorem Delivers.stored {r r' : Reader} {t : MemoryTable} {fetched : FetchedPage}
    (hd : r.Delivers (r.page.remaining t.rows) fetched r') {row : Row} (hm : row ∈ fetched.rows) :
    row ∈ t.rows ∧ r.page.ahead row = true := by
  rw [hd.rows] at hm
  exact Page.mem_remaining.mp (List.mem_of_mem_take hm)

theorem Delivers.ascending {r r' : Reader} {rows : List Row} {fetched : FetchedPage}
    (hd : r.Delivers (r.page.remaining rows) fetched r') (hr : r.page.order.Apart rows) :
    r.page.order.Ascending fetched.rows := by
  rw [hd.rows]
  exact List.Pairwise.take (Page.remaining_ascending hr)

/-- What is ahead after a call was ahead before, and comes behind the rows
returned. -/
theorem Delivers.lt_of_ahead {r r' : Reader} {t : MemoryTable} {fetched : FetchedPage}
    (hd : r.Delivers (r.page.remaining t.rows) fetched r') (ht : r.page.order.Apart t.rows)
    {row : Row} (hrow : r'.page.ahead row = true) :
    r.page.ahead row = true ∧ ∀ x ∈ fetched.rows, r.page.order.compareRows x row = .lt := by
  cases hlast : fetched.rows.getLast? with
  | none =>
    have hnil := List.getLast?_eq_none_iff.mp hlast
    rw [hd.stayed hnil] at hrow
    exact ⟨hrow, by simp [hnil]⟩
  | some last =>
    have hgt := ((hd.moved last hlast).2 row).mp hrow
    refine ⟨Page.ahead_of_greater (hd.stored (List.mem_of_getLast? hlast)).2 hgt, ?_⟩
    intro x hx
    exact Std.TransCmp.lt_of_isLE_of_lt ((hd.ascending ht).isLE_last hlast hx)
      (Std.OrientedCmp.lt_of_gt hgt)

/-- A row left that did not fit on the page is ahead after the call. -/
theorem Delivers.ahead_of_mem_drop {r r' : Reader} {rows : List Row} {fetched : FetchedPage}
    (hd : r.Delivers (r.page.remaining rows) fetched r') (hr : r.page.order.Apart rows) {row : Row}
    (hm : row ∈ (r.page.remaining rows).drop r.page.size.toNat) :
    r'.isExhausted = false ∧ r'.page.ahead row = true := by
  have hlt : r.page.size.toNat < (r.page.remaining rows).length := by
    have hpos := List.length_pos_of_mem hm
    rw [List.length_drop] at hpos
    omega
  obtain ⟨last, hlast⟩ := hd.exists_last hlt
  refine ⟨by rw [hd.exhausted, hd.reachedEnd]; simpa using hlt, ?_⟩
  rw [(hd.moved last hlast).2 row]
  rw [hd.rows] at hlast
  rw [← (Page.remaining_ascending hr).filter_behind hlast, List.mem_filter,
    decide_eq_true_eq] at hm
  exact hm.2

theorem Delivers.advances {r r' : Reader} {t : MemoryTable} {fetched : FetchedPage}
    (hd : r.Delivers (r.page.remaining t.rows) fetched r') (he : r.isExhausted = false)
    (ht : r.page.order.Apart t.rows) : r.Advances t fetched r' where
  wellPlaced := hd.wellPlaced
  order := hd.order
  ascending := hd.ascending ht
  stored := fun _ hm => hd.stored hm
  ahead := fun _ hrow => hd.lt_of_ahead ht hrow
  covers := by
    intro _ row hrow hahead
    have hm : row ∈ r.page.remaining t.rows := Page.mem_remaining.mpr ⟨hrow, hahead⟩
    rw [← List.take_append_drop r.page.size.toNat (r.page.remaining t.rows), ← hd.rows] at hm
    exact (List.mem_append.mp hm).imp_right (hd.ahead_of_mem_drop ht)
  ended := by
    intro hend
    rw [hd.exhausted]
    exact hend.resolve_left (by rw [he]; exact Bool.false_ne_true)

/-- A call that meets a sound table succeeds and advances the reader. -/
theorem next_advances {r : Reader} {t : MemoryTable} (h : r.page.WellPlaced)
    (ht : t.Sound r.page.order) :
    ∃ fetched r', r.next MemoryTable.source t = (.ok fetched, r', t) ∧
      r.Advances t fetched r' := by
  cases he : r.isExhausted with
  | false =>
    obtain ⟨q, fetched, r', -, hnext, hd⟩ :=
      next_delivers MemoryTable.source t h ht.complete he fun q => rfl
    exact ⟨fetched, r', hnext, hd.advances he ht.apart⟩
  | true =>
    refine ⟨.exhausted r.position, r, by simp only [next, call, he, if_true], ?_⟩
    exact {
      wellPlaced := h
      order := rfl
      ascending := List.Pairwise.nil
      stored := by simp [FetchedPage.exhausted]
      ahead := by simp [FetchedPage.exhausted]
      covers := by simp [he]
      ended := fun _ => he }

end Reader

/-- What happens to a reader and its table. -/
inductive Run.Event where
  | next
  | insert (row : Row)
  | remove (gone : Row → Bool)

def Run.Event.write : Run.Event → MemoryTable → MemoryTable
  | .next, t => t
  | .insert row, t => t.insert row
  | .remove gone, t => t.removeWhere gone

/-- The table behind some events. -/
def MemoryTable.written (t : MemoryTable) (events : List Run.Event) : MemoryTable :=
  events.foldl (fun t e => e.write t) t

theorem MemoryTable.written_append (t : MemoryTable) (before after : List Run.Event) :
    t.written (before ++ after) = (t.written before).written after := List.foldl_append

/-- A call of a reader. -/
structure Visit where
  /-- The table the call met. -/
  table : MemoryTable
  /-- The reader before the call. -/
  reader : Reader
  answer : Except FetchError FetchedPage

namespace Visit

def rows (v : Visit) : List Row :=
  match v.answer with
  | .ok fetched => fetched.rows
  | .error _ => []

def reachedEnd (v : Visit) : Bool :=
  match v.answer with
  | .ok fetched => fetched.reachedEnd
  | .error _ => false

/-- The rows that calls returned, one after the other. -/
def returned (visits : List Visit) : List Row := visits.flatMap rows

theorem returned_concat (visits : List Visit) (t : MemoryTable) (r : Reader)
    (fetched : FetchedPage) :
    returned (visits ++ [⟨t, r, .ok fetched⟩]) = returned visits ++ fetched.rows := by
  rw [returned, List.flatMap_append]
  simp [returned, rows]

end Visit

/-- The calls up to now, and the reader and the table behind them. -/
structure Run where
  visits : List Visit
  reader : Reader
  table : MemoryTable

namespace Run

def step (run : Run) : Event → Run
  | .next =>
    let (answer, reader, table) := run.reader.next MemoryTable.source run.table
    ⟨run.visits ++ [⟨run.table, run.reader, answer⟩], reader, table⟩
  | .insert row => { run with table := run.table.insert row }
  | .remove gone => { run with table := run.table.removeWhere gone }

def play (run : Run) (events : List Event) : Run := events.foldl step run

/-- The run of a reader and a table through some events. -/
def of (r : Reader) (t : MemoryTable) (events : List Event) : Run := play ⟨[], r, t⟩ events

theorem step_next {run : Run} {answer : Except FetchError FetchedPage} {r : Reader}
    {t : MemoryTable} (h : run.reader.next MemoryTable.source run.table = (answer, r, t)) :
    run.step .next = ⟨run.visits ++ [⟨run.table, run.reader, answer⟩], r, t⟩ := by
  simp only [step, h]

theorem step_table (run : Run) (e : Event) : (run.step e).table = e.write run.table := by
  cases e with
  | next =>
    simp only [step, Reader.next, MemoryTable.source, Event.write]
    split <;> rfl
  | insert row => rfl
  | remove gone => rfl

theorem of_append (r : Reader) (t : MemoryTable) (before after : List Event) :
    of r t (before ++ after) = (of r t before).play after := List.foldl_append

theorem play_table (run : Run) (events : List Event) :
    (run.play events).table = run.table.written events := by
  induction events generalizing run with
  | nil => rfl
  | cons e events ih =>
    show ((run.step e).play events).table = (e.write run.table).written events
    rw [ih, step_table]

/-! ## What every event keeps -/

/-- The reader walks in order: every call up to now succeeded with rows of the
table it met, and all rows returned are ascending and before what is ahead. -/
structure Ordered (o : SortOrder) (run : Run) : Prop where
  wellPlaced : run.reader.page.WellPlaced
  order : run.reader.page.order = o
  answered : ∀ v ∈ run.visits, ∃ fetched, v.answer = .ok fetched ∧
    ∀ row ∈ fetched.rows, row ∈ v.table.rows
  ascending : o.Ascending (Visit.returned run.visits)
  ahead : ∀ row, run.reader.page.ahead row = true →
    ∀ x ∈ Visit.returned run.visits, o.compareRows x row = .lt

/-- What the calls of a run from another one on have to do with what was ahead
then. -/
structure Follows (first : Run) (later : List Visit) (run : Run) : Prop where
  visits : run.visits = first.visits ++ later
  returned : ∀ row ∈ Visit.returned later, first.reader.page.ahead row = true
  ahead : ∀ row, run.reader.page.ahead row = true → first.reader.page.ahead row = true
  /-- A row that every fetch met has been returned, or is still to come. -/
  covers : first.reader.isExhausted = false → ∀ row, first.reader.page.ahead row = true →
    (∀ v ∈ later, v.reader.isExhausted = false → row ∈ v.table.rows) →
    row ∈ Visit.returned later ∨
      run.reader.isExhausted = false ∧ run.reader.page.ahead row = true
  ended : (∃ v ∈ later, v.reachedEnd = true) → run.reader.isExhausted = true

variable {o : SortOrder} {first run : Run} {later : List Visit}

/-- A call adds a visit that succeeds and advances the reader; other events
change the table only. -/
theorem step_cases (h : run.Ordered o) (ht : run.table.Sound o) (e : Event) :
    (∃ fetched r', run.reader.Advances run.table fetched r' ∧
      run.step e = ⟨run.visits ++ [⟨run.table, run.reader, .ok fetched⟩], r', run.table⟩) ∨
    ∃ t, run.step e = { run with table := t } := by
  cases e with
  | next =>
    obtain ⟨fetched, r', hnext, ha⟩ := Reader.next_advances h.wellPlaced (h.order ▸ ht)
    exact Or.inl ⟨fetched, r', ha, step_next hnext⟩
  | insert row => exact Or.inr ⟨_, rfl⟩
  | remove gone => exact Or.inr ⟨_, rfl⟩

theorem Ordered.step (h : run.Ordered o) (ht : run.table.Sound o) (e : Event) :
    (run.step e).Ordered o := by
  rcases step_cases h ht e with ⟨fetched, r', ha, hstep⟩ | ⟨t, hstep⟩
  · rw [hstep]
    refine {
      wellPlaced := ha.wellPlaced
      order := ha.order.trans h.order
      answered := ?_
      ascending := ?_
      ahead := ?_ }
    · intro v hv
      rcases List.mem_append.mp hv with hv | hv
      · exact h.answered v hv
      · rw [List.mem_singleton.mp hv]
        exact ⟨fetched, rfl, fun row hm => (ha.stored row hm).1⟩
    · rw [Visit.returned_concat]
      exact List.pairwise_append.mpr ⟨h.ascending, h.order ▸ ha.ascending,
        fun x hx row hm => h.ahead row (ha.stored row hm).2 x hx⟩
    · intro row hrow x hx
      rw [Visit.returned_concat] at hx
      rcases List.mem_append.mp hx with hx | hx
      · exact h.ahead row (ha.ahead row hrow).1 x hx
      · exact h.order ▸ (ha.ahead row hrow).2 x hx
  · rw [hstep]
    exact { h with }

theorem Follows.refl (run : Run) : Follows run [] run where
  visits := by simp
  returned := by simp [Visit.returned]
  ahead := fun _ h => h
  covers := fun he _ h _ => Or.inr ⟨he, h⟩
  ended := by simp

theorem Follows.step (hf : Follows first later run) (h : run.Ordered o)
    (ht : run.table.Sound o) (e : Event) :
    ∃ added, Follows first (later ++ added) (run.step e) := by
  rcases step_cases h ht e with ⟨fetched, r', ha, hstep⟩ | ⟨t, hstep⟩
  · rw [hstep]
    refine ⟨[⟨run.table, run.reader, .ok fetched⟩], {
      visits := by rw [hf.visits, List.append_assoc]
      returned := ?_
      ahead := fun row hrow => hf.ahead row (ha.ahead row hrow).1
      covers := ?_
      ended := ?_ }⟩
    · intro row hm
      rw [Visit.returned_concat] at hm
      rcases List.mem_append.mp hm with hm | hm
      · exact hf.returned row hm
      · exact hf.ahead row (ha.stored row hm).2
    · intro he row hrow hall
      rw [Visit.returned_concat, List.mem_append]
      rcases hf.covers he row hrow fun v hv => hall v (List.mem_append_left _ hv) with
        hm | ⟨hrun, hahead⟩
      · exact Or.inl (Or.inl hm)
      · have hstored : row ∈ run.table.rows := hall ⟨run.table, run.reader, .ok fetched⟩ (by simp) hrun
        rcases ha.covers hrun row hstored hahead with hm | hrest
        · exact Or.inl (Or.inr hm)
        · exact Or.inr hrest
    · rintro ⟨v, hv, hend⟩
      rcases List.mem_append.mp hv with hv | hv
      · exact ha.ended (Or.inl (hf.ended ⟨v, hv, hend⟩))
      · rw [List.mem_singleton.mp hv] at hend
        exact ha.ended (Or.inr hend)
  · rw [hstep]
    exact ⟨[], by rw [List.append_nil]; exact { hf with }⟩

/-! ## Whole runs -/

variable {events : List Event}

theorem Ordered.play (h : run.Ordered o)
    (ht : ∀ before, before <+: events → (run.table.written before).Sound o) :
    (run.play events).Ordered o := by
  induction events generalizing run with
  | nil => exact h
  | cons e events ih =>
    refine ih (h.step (ht [] List.nil_prefix) e) fun before hb => ?_
    rw [step_table]
    exact ht (e :: before) (List.cons_prefix_cons.mpr ⟨rfl, hb⟩)

theorem Follows.play (hf : Follows first later run) (h : run.Ordered o)
    (ht : ∀ before, before <+: events → (run.table.written before).Sound o) :
    ∃ added, Follows first (later ++ added) (run.play events) := by
  induction events generalizing run later with
  | nil => exact ⟨[], by rw [List.append_nil]; exact hf⟩
  | cons e events ih =>
    have hnow := ht [] List.nil_prefix
    obtain ⟨added, hstep⟩ := hf.step h hnow e
    obtain ⟨more, hplay⟩ := ih hstep (h.step hnow e) fun before hb => by
      rw [step_table]
      exact ht (e :: before) (List.cons_prefix_cons.mpr ⟨rfl, hb⟩)
    exact ⟨added ++ more, by rw [← List.append_assoc]; exact hplay⟩

/-- **A traversal is consistent with writers.** Rows are inserted and removed
between the calls of a reader, in any order. At every moment the rows stored are
complete and no two compare equal. Then all rows returned are ascending, and one
inserted at the position of the reader or before it is not returned any more.
Every call succeeds with rows that are stored at that moment. When the end is
reached, a row behind the starting position that was stored at every fetch has
been returned once. -/
theorem consistent_among_writers {page : Page} {r : Reader} {t : MemoryTable}
    (started : Reader.start page = .ok r) (trimmed : page.order.Trimmed)
    (size_pos : 1 ≤ page.size.toNat) (size_lt : page.size.toNat + 1 < UInt64.size)
    (sound : ∀ before, before <+: events → (t.written before).Sound page.order) :
    page.order.Ascending (Visit.returned (of r t events).visits) ∧
    (∀ before row after, events = before ++ .insert row :: after →
      (of r t before).reader.page.ahead row = false →
      row ∉ Visit.returned ((of r t events).visits.drop (of r t before).visits.length)) ∧
    (∀ v ∈ (of r t events).visits, ∃ fetched, v.answer = .ok fetched ∧
      ∀ row ∈ fetched.rows, row ∈ v.table.rows) ∧
    ((∃ v ∈ (of r t events).visits, v.reachedEnd = true) →
      ∀ row, page.ahead row = true →
        (∀ v ∈ (of r t events).visits, v.reader.isExhausted = false → row ∈ v.table.rows) →
        (Visit.returned (of r t events).visits).count row = 1) := by
  obtain ⟨hr, hfits⟩ := Reader.start_eq_ok_iff.mp started
  have hpage : r.page = page := by rw [hr]
  have hbegin : Ordered page.order ⟨[], r, t⟩ := {
    wellPlaced := hpage ▸ ⟨trimmed, hfits, size_pos, size_lt⟩
    order := by rw [hpage]
    answered := by simp
    ascending := List.Pairwise.nil
    ahead := by simp [Visit.returned] }
  have hend : (of r t events).Ordered page.order := hbegin.play sound
  refine ⟨hend.ascending, ?_, hend.answered, ?_⟩
  · rintro before row after rfl hrow hm
    have hmid : (of r t before).Ordered page.order :=
      hbegin.play fun b hb => sound b (hb.trans (List.prefix_append _ _))
    have htable : (of r t before).table = t.written before := play_table _ before
    obtain ⟨later, hf⟩ := (Follows.refl _).play hmid fun b hb => by
      rw [htable, ← MemoryTable.written_append]
      exact sound _ ((List.prefix_append_right_inj before).mpr hb)
    rw [of_append, hf.visits, List.nil_append, List.drop_left] at hm
    rw [hf.returned row hm] at hrow
    cases hrow
  · intro hreached row hrow hall
    obtain ⟨later, hf⟩ := (Follows.refl _).play hbegin sound
    have hvisits : (of r t events).visits = [] ++ later := hf.visits
    have hlive : r.isExhausted = false := by rw [hr]; rfl
    rw [← hpage] at hrow
    rw [hvisits] at hreached hall
    rcases hf.covers hlive row hrow hall with hm | ⟨hrest, -⟩
    · rw [hend.ascending.nodup.count, hvisits, if_pos hm]
    · rw [hf.ended hreached] at hrest
      cases hrest

/-- A reader of pages of two posts, from post 2 on. -/
def fromSecond : Reader :=
  ⟨((Page.first Post.ranking).withSize 2).after (some Post.second), .ready, 0⟩

/-- Two calls. Before them comes a post that stands before post 2 in the
ranking; between them post 2 goes, and one comes behind the others. -/
def comings : List Event :=
  [.insert (Post.scored 0 none), .next, .remove fun row => Post.id? row = some 2,
    .insert (Post.scored 5 (some 1)), .next]

theorem sound_comings : ∀ n < 6, (Post.four.written (comings.take n)).Sound Post.ranking := by
  decide

/-- The first call returns posts 3 and 4, and the second finds two posts left. -/
theorem visits_comings : ∃ first between second, (of fromSecond Post.four comings).visits =
      [⟨Post.four.written (comings.take 1), fromSecond, .ok first⟩,
        ⟨Post.four.written (comings.take 4), between, .ok second⟩] ∧
    second.reachedEnd = true := by
  have hplaced : fromSecond.page.WellPlaced :=
    ⟨by decide, (Reader.start_eq_ok_iff (r := fromSecond).mp rfl).2, by decide, by decide⟩
  obtain ⟨q, first, between, -, hfirst, hd⟩ := Reader.next_delivers MemoryTable.source
    (Post.four.written (comings.take 1)) hplaced (sound_comings 1 (by decide)).complete rfl
    fun _ => rfl
  have hleft : fromSecond.page.remaining (Post.four.written (comings.take 1)).rows =
      [Post.scored 3 none, Post.scored 4 (some 7), Post.scored 1 (some 3)] :=
    sort_eq_of_ascending (by decide) (by decide)
  rw [hleft] at hd
  obtain ⟨q', second, r', -, hsecond, hd'⟩ := Reader.next_delivers MemoryTable.source
    (Post.four.written (comings.take 4)) hd.wellPlaced
    (hd.order ▸ (sound_comings 4 (by decide)).complete) (hd.exhausted.trans hd.reachedEnd)
    fun _ => rfl
  have hahead : between.page.ahead = fun row =>
      decide (Post.ranking.compareRows row (Post.scored 4 (some 7)) = .gt) := by
    funext row
    rw [Bool.eq_iff_iff, decide_eq_true_eq]
    exact (hd.moved _ (by rw [hd.rows]; rfl)).2 row
  refine ⟨first, between, second, ?_, ?_⟩
  · have hone : step ⟨[], fromSecond, Post.four.written (comings.take 1)⟩ .next =
        ⟨[⟨Post.four.written (comings.take 1), fromSecond, .ok first⟩], between,
          Post.four.written (comings.take 1)⟩ := step_next hfirst
    show (step (step (step (step ⟨[], fromSecond, Post.four.written (comings.take 1)⟩ .next)
      _) _) .next).visits = _
    rw [hone]
    exact congrArg visits (step_next hsecond)
  · rw [hd'.reachedEnd, Page.remaining, (sort_perm _ _).length_eq, hahead, hd.size]
    decide

/-- The second call reaches the end. The posts that were behind post 2 all the
time have been returned once each, and the one that came before it has not. -/
theorem consistent_comings : Reader.start fromSecond.page = .ok fromSecond ∧
    Post.ranking.Ascending (Visit.returned (of fromSecond Post.four comings).visits) ∧
    Post.scored 0 none ∉ Visit.returned (of fromSecond Post.four comings).visits ∧
    (∀ v ∈ (of fromSecond Post.four comings).visits, ∃ fetched, v.answer = .ok fetched ∧
      ∀ row ∈ fetched.rows, row ∈ v.table.rows) ∧
    (∃ v ∈ (of fromSecond Post.four comings).visits, v.reachedEnd = true) ∧
    ∀ row ∈ [Post.scored 1 (some 3), Post.scored 3 none, Post.scored 4 (some 7)],
      (Visit.returned (of fromSecond Post.four comings).visits).count row = 1 := by
  have hsound : ∀ before, before <+: comings → (Post.four.written before).Sound Post.ranking := by
    intro before hb
    rw [List.prefix_iff_eq_take.mp hb]
    exact sound_comings _ (Nat.lt_succ_of_le hb.length_le)
  have hstart : Reader.start fromSecond.page = .ok fromSecond := by decide
  obtain ⟨hascending, hbefore, hanswered, honce⟩ :=
    consistent_among_writers hstart (by decide) (by decide) (by decide) hsound
  have hzero := hbefore [] (Post.scored 0 none) _ rfl (by decide)
  obtain ⟨first, between, second, hvisits, hreached⟩ := visits_comings
  have hend : ∃ v ∈ (of fromSecond Post.four comings).visits, v.reachedEnd = true := by
    rw [hvisits]
    exact ⟨_, List.mem_cons_of_mem _ List.mem_cons_self, hreached⟩
  refine ⟨hstart, hascending, hzero, hanswered, hend, fun row hrow => honce hend row ?_ ?_⟩
  · revert row hrow
    decide
  · intro v hv _
    rw [hvisits, List.mem_cons, List.mem_singleton] at hv
    have hstored : ∀ n ∈ [1, 4], ∀ row ∈ [Post.scored 1 (some 3), Post.scored 3 none,
        Post.scored 4 (some 7)], row ∈ (Post.four.written (comings.take n)).rows := by decide
    rcases hv with rfl | rfl
    · exact hstored 1 (by simp) row hrow
    · exact hstored 4 (by simp) row hrow

end Run

end Keyset
