import Keyset.Proofs.Condition.Seek
import Keyset.Reader.Basic
import Keyset.Source.Memory

/-! # One page from a table

The rows of a table that lie behind the position of a page, in order, are what
the page has left (`Page.remaining`). A reader that asks a table for its next
page gets the first of them, learns whether there are more, and moves behind
the last one it got (`Delivers`, `next_delivers`). Nothing here needs the table
to be the same for two calls. -/

namespace Keyset

open SortOrder

namespace Page

/-- The row lies behind the position: on the first column that the position
sets and the row differs on, the row comes later. Every row does if there is no
position, or none that sets a column. -/
def ahead (p : Page) (row : Row) : Bool :=
  p.position.all fun c =>
    (c.leading p.order.key).isEmpty ||
      lexicographic (c.leading p.order.key) row.value c.bound = .gt

/-- The row satisfies the condition of the page: it lies behind the position and is not passed
over for want of a value. -/
def finds (p : Page) (row : Row) : Bool :=
  p.position.all fun c =>
    (c.leading p.order.key).isEmpty ||
      Reaches (c.leading p.order.key) row.value c.bound

/-- The rows that lie behind the position, in order. -/
def remaining (p : Page) (rows : List Row) : List Row := p.order.sort (rows.filter p.ahead)

/-- The page has room for a row, and there is a number for one row more. -/
def Sized (p : Page) : Prop := 1 ≤ p.size.toNat ∧ p.size.toNat + 1 < UInt64.size

instance (p : Page) : Decidable p.Sized :=
  inferInstanceAs (Decidable (1 ≤ p.size.toNat ∧ p.size.toNat + 1 < UInt64.size))

/-- A page from which the listing can be walked to its end. -/
structure WellPlaced (p : Page) : Prop where
  trimmed : p.order.Trimmed
  fits : ∀ c ∈ p.position, ∃ k, c.fit p.order = .ok k
  size_pos : 1 ≤ p.size.toNat
  /-- There is a number for one row more. -/
  size_lt : p.size.toNat + 1 < UInt64.size

variable {p : Page}

theorem Sized.wellPlaced (h : p.Sized) (hn : p.order.Trimmed) (hfirst : p.position = none) :
    p.WellPlaced where
  trimmed := hn
  fits := fun c hc => by
    rw [hfirst] at hc
    cases hc
  size_pos := h.1
  size_lt := h.2

theorem ahead_of_position_none (h : p.position = none) (row : Row) : p.ahead row = true := by
  rw [ahead, h]; rfl

theorem ahead_of_position_some {c : Cursor} (h : p.position = some c) (row : Row) :
    p.ahead row = true ↔ c.leading p.order.key = [] ∨
      lexicographic (c.leading p.order.key) row.value c.bound = .gt := by
  rw [ahead, h, Option.all_some, Bool.or_eq_true, List.isEmpty_iff, decide_eq_true_eq]

/-- Whatever compares greater than a row that lies behind the position does so
too. -/
theorem ahead_of_greater {a b : Row} (ha : p.ahead a = true)
    (hb : p.order.compareRows b a = .gt) : p.ahead b = true := by
  cases hp : p.position with
  | none => exact ahead_of_position_none hp b
  | some c =>
    rw [ahead_of_position_some hp] at ha ⊢
    refine ha.imp_right fun ha => ?_
    -- the position may set fewer columns than decide between the rows
    obtain ⟨rest, hrest⟩ : c.leading p.order.key <+: p.order.key := List.takeWhile_prefix c.sets
    rw [compareRows_eq, ← hrest, lexicographic_append] at hb
    have hge : (lexicographic (c.leading p.order.key) b.value a.value).isGE = true :=
      Ordering.isGE_left_of_isGE_then (by rw [hb]; rfl)
    exact Std.TransCmp.gt_of_isGE_of_gt hge ha

/-- The limit is one row more if there is a number for it. -/
theorem limit_eq_succ_iff (p : Page) :
    p.limit.toNat = p.size.toNat + 1 ↔ p.size.toNat + 1 < UInt64.size := by
  rw [limit, UInt64.toNat_add, UInt64.toNat_one]
  constructor
  · intro h
    rw [← h]
    exact Nat.mod_lt _ (by decide)
  · intro h
    exact Nat.mod_eq_of_lt h

theorem WellPlaced.limit_eq (h : p.WellPlaced) : p.limit.toNat = p.size.toNat + 1 :=
  (limit_eq_succ_iff p).mpr h.size_lt

theorem mem_remaining {rows : List Row} {row : Row} :
    row ∈ p.remaining rows ↔ row ∈ rows ∧ p.ahead row = true := by
  rw [remaining, mem_sort, List.mem_filter]

theorem remaining_ascending {rows : List Row} (h : p.order.Apart rows) :
    p.order.Ascending (p.remaining rows) := (h.filter p.ahead).sort_ascending

/-- Behind the position of a row lie the rows that compare greater. -/
theorem ahead_after_ofRow (hn : p.order.Trimmed) {last : Row} {c : Cursor}
    (hc : Cursor.ofRow p.order last = .ok c) :
    (p.after (some c)).position = some c ∧ ∀ row,
      ((p.after (some c)).ahead row = true ↔ p.order.compareRows row last = .gt) := by
  have hpos : (p.after (some c)).position = some c := by
    simp [after, Cursor.isEmpty_ofRow hc]
  refine ⟨hpos, fun row => ?_⟩
  rw [ahead_of_position_some hpos, compareRows_eq]
  show c.leading p.order.key = [] ∨
    lexicographic (c.leading p.order.key) row.value c.bound = .gt ↔ _
  rw [Cursor.leading_ofRow hn hc, lexicographic_congr fun column hm => Cursor.bound_ofRow hn hc hm]
  exact or_iff_right p.order.key_ne_nil

theorem WellPlaced.after_ofRow (h : p.WellPlaced) {last : Row} {c : Cursor}
    (hc : Cursor.ofRow p.order last = .ok c) : (p.after (some c)).WellPlaced where
  trimmed := h.trimmed
  fits := by
    intro d hd
    rw [(ahead_after_ofRow h.trimmed hc).1] at hd
    cases hd
    exact ⟨_, Cursor.fit_ofRow h.trimmed hc⟩
  size_pos := h.size_pos
  size_lt := h.size_lt

theorem finds_of_position_none (h : p.position = none) (row : Row) : p.finds row = true := by
  rw [finds, h]; rfl

theorem finds_of_position_some {c : Cursor} (h : p.position = some c) (row : Row) :
    p.finds row = true ↔ c.leading p.order.key = [] ∨
      Reaches (c.leading p.order.key) row.value c.bound := by
  rw [finds, h, Option.all_some, Bool.or_eq_true, List.isEmpty_iff, decide_eq_true_eq]

/-- Complete rows are found wherever they lie behind the position. -/
theorem finds_of_complete {row : Row} (hrow : p.order.Complete row) :
    p.finds row = p.ahead row := by
  cases hp : p.position with
  | none => rw [finds_of_position_none hp, ahead_of_position_none hp]
  | some c =>
    have hthere : ∀ column ∈ c.leading p.order.key, column.nullable = false →
        (row.value column.name).isNull = false :=
      fun column hc => hrow column (List.takeWhile_prefix c.sets |>.subset hc)
    rw [Bool.eq_iff_iff, finds_of_position_some hp, ahead_of_position_some hp, Reaches,
      and_iff_left (passedOver_of_complete hthere)]

/-- The condition of a page holds of the rows that the page finds. -/
theorem WellPlaced.lowerBound_finds (h : p.WellPlaced) : ∃ q, p.lowerBound = .ok q ∧
    ∀ row, q.all (·.holds row) = p.finds row := by
  cases hp : p.position with
  | none =>
    refine ⟨none, by rw [lowerBound, hp], fun row => ?_⟩
    rw [finds_of_position_none hp]; rfl
  | some c =>
    obtain ⟨k, hfit⟩ := h.fits c (by rw [hp]; rfl)
    have hleading := (Cursor.fit_eq_ok hfit).1
    rcases Nat.eq_zero_or_pos k with rfl | hk
    · refine ⟨none, ?_, fun row => ?_⟩
      · rw [lowerBound, hp]
        simp only [Cursor.lowerBound, hfit, bind, Except.bind, if_true]
        rfl
      · rw [(finds_of_position_some hp row).mpr (Or.inl hleading)]
        rfl
    · refine ⟨some (.any (c.disjuncts [] (p.order.key.take k))), ?_, fun row => ?_⟩
      · rw [lowerBound, hp]
        exact Cursor.lowerBound_of_fit hfit hk
      · have hne : p.order.key.take k ≠ [] := by
          rw [Ne, List.take_eq_nil_iff, not_or]
          exact ⟨by omega, p.order.key_ne_nil⟩
        rw [Option.all_some, Bool.eq_iff_iff, Cursor.holds_lowerBound_iff hfit,
          finds_of_position_some hp, hleading, or_iff_right hne]

end Page

/-- All that is asked of the rows of a table: they are complete, and no two
compare equal. -/
structure MemoryTable.Sound (t : MemoryTable) (o : SortOrder) : Prop where
  complete : ∀ row ∈ t.rows, o.Complete row
  apart : o.Apart t.rows

instance (t : MemoryTable) (o : SortOrder) : Decidable (t.Sound o) :=
  decidable_of_iff ((∀ row ∈ t.rows, o.Complete row) ∧ o.Apart t.rows)
    ⟨fun h => ⟨h.1, h.2⟩, fun h => ⟨h.complete, h.apart⟩⟩

/-- A table answers with what the page has left, up to one row more than the
page may have. -/
theorem MemoryTable.fetch_eq {t : MemoryTable} {q : Request} {p : Page} (h : p.WellPlaced)
    (ht : ∀ row ∈ t.rows, p.order.Complete row) (ho : q.order = p.order)
    (hq : ∀ row, p.order.Complete row → q.condition.all (·.holds row) = p.ahead row)
    (hl : q.limit = p.limit) :
    t.fetch q = (p.remaining t.rows).take (p.size.toNat + 1) := by
  have hm : t.matching q = t.rows.filter p.ahead :=
    List.filter_congr fun row hrow => hq row (ht row hrow)
  rw [fetch, hm, ho, hl, h.limit_eq, Page.remaining]

namespace Reader

/-- What a call does that finds these rows left. -/
structure Delivers (r : Reader) (left : List Row) (fetched : FetchedPage) (r' : Reader) :
    Prop where
  rows : fetched.rows = left.take r.page.size.toNat
  position : fetched.position = r.position
  next : fetched.next = if r.page.size.toNat < left.length then r'.position else none
  reachedEnd : fetched.reachedEnd = decide (left.length ≤ r.page.size.toNat)
  exhausted : r'.isExhausted = fetched.reachedEnd
  wellPlaced : r'.page.WellPlaced
  order : r'.page.order = r.page.order
  size : r'.page.size = r.page.size
  /-- The reader stands behind the last row it got. -/
  moved : ∀ last, fetched.rows.getLast? = some last → r'.position.isSome = true ∧
    ∀ row, r'.page.ahead row = true ↔ r.page.order.compareRows row last = .gt
  stayed : fetched.rows = [] → r'.page = r.page

/-- If rows are left behind a page, it has a last row. -/
theorem Delivers.exists_last {r r' : Reader} {left : List Row} {fetched : FetchedPage}
    (hd : r.Delivers left fetched r') (hlt : r.page.size.toNat < left.length) :
    ∃ last, fetched.rows.getLast? = some last := by
  have hpos : 1 ≤ r.page.size.toNat := hd.size ▸ hd.wellPlaced.size_pos
  have hne : fetched.rows ≠ [] := by
    rw [hd.rows, Ne, List.take_eq_nil_iff, not_or]
    exact ⟨by omega, List.ne_nil_of_length_pos (by omega)⟩
  exact ⟨_, List.getLast?_eq_some_getLast hne⟩

theorem Delivers.next_isSome {r r' : Reader} {left : List Row} {fetched : FetchedPage}
    (hd : r.Delivers left fetched r') (hlt : r.page.size.toNat < left.length) :
    fetched.next.isSome = true := by
  obtain ⟨last, hlast⟩ := hd.exists_last hlt
  rw [hd.next, if_pos hlt]
  exact (hd.moved last hlast).1

/-- A reader starts from any page whose position fits its ordering. -/
theorem start_eq_ok_iff {p : Page} {r : Reader} :
    start p = .ok r ↔ r = ⟨p, .ready, 0⟩ ∧ ∀ c ∈ p.position, ∃ k, c.fit p.order = .ok k := by
  cases hp : p.position with
  | none =>
    have hstart : start p = .ok ⟨p, .ready, 0⟩ := by rw [start, hp]; rfl
    simp [hstart, eq_comm]
  | some c =>
    cases hfit : c.fit p.order with
    | error e =>
      have hstart : start p = .error e := by
        simp only [start, hp, hfit, bind, Except.bind]
      simp [hstart, hfit]
    | ok k =>
      have hstart : start p = .ok ⟨p, .ready, 0⟩ := by
        simp only [start, hp, hfit, bind, Except.bind]
        rfl
      simp [hstart, hfit, eq_comm]

theorem request_finds (r : Reader) (h : r.page.WellPlaced) :
    ∃ q, r.request = .ok q ∧ q.order = r.page.order ∧ q.limit = r.page.limit ∧
      ∀ row, q.condition.all (·.holds row) = r.page.finds row := by
  obtain ⟨condition, hc, hrow⟩ := h.lowerBound_finds
  refine ⟨⟨r.page.order, condition, r.page.limit⟩, ?_, rfl, rfl, hrow⟩
  simp only [request, hc, bind, Except.bind]
  rfl

theorem request_eq (r : Reader) (h : r.page.WellPlaced) :
    ∃ q, r.request = .ok q ∧ q.order = r.page.order ∧ q.limit = r.page.limit ∧
      ∀ row, r.page.order.Complete row → q.condition.all (·.holds row) = r.page.ahead row := by
  obtain ⟨q, hq, ho, hl, hrow⟩ := r.request_finds h
  exact ⟨q, hq, ho, hl, fun row hc => by rw [hrow, Page.finds_of_complete hc]⟩

theorem lastPosition_of_getLast? {o : SortOrder} {rows : List Row} {last : Row}
    (h : rows.getLast? = some last) (hc : o.Complete last) :
    ∃ c, Cursor.ofRow o last = .ok c ∧ lastPosition o rows = .ok (some c) := by
  obtain ⟨c, hrow⟩ := Cursor.ofRow_eq_ok_iff.mpr hc
  exact ⟨c, hrow, by rw [lastPosition, h]; simp only [hrow]⟩

/-- What taking an answer amounts to if its last row has a position. -/
theorem take_eq {r : Reader} {answered : List Row} {last : Option Cursor}
    (h : lastPosition r.page.order (answered.take r.page.size.toNat) = .ok last) :
    r.take answered = .ok
      ({ rows := answered.take r.page.size.toNat
         position := r.position
         next := if r.page.size.toNat < answered.length then last else none
         reachedEnd := !decide (r.page.size.toNat < answered.length)
         rowCount := UInt64.ofNat (answered.take r.page.size.toNat).length
         milliseconds := 0 },
       ⟨if last.isSome then r.page.after last else r.page,
        if r.page.size.toNat < answered.length then .hasPage else .exhausted,
        r.pagesRead + 1⟩) := by
  simp only [take, h, bind, Except.bind]
  rfl

/-- An answer that holds the rows left, up to one more than the page may have,
delivers the page. -/
theorem take_delivers {r : Reader} {left : List Row} (h : r.page.WellPlaced)
    (hleft : ∀ row ∈ left, r.page.order.Complete row) :
    ∃ fetched r', r.take (left.take (r.page.size.toNat + 1)) = .ok (fetched, r') ∧
      r.Delivers left fetched r' := by
  have hpos := h.size_pos
  have htake : (left.take (r.page.size.toNat + 1)).take r.page.size.toNat =
      left.take r.page.size.toNat := by
    rw [List.take_take, Nat.min_eq_left (Nat.le_succ _)]
  have hmore : (r.page.size.toNat < (left.take (r.page.size.toNat + 1)).length) ↔
      r.page.size.toNat < left.length := by
    rw [List.length_take]; omega
  cases hlast : (left.take r.page.size.toNat).getLast? with
  | none =>
    -- no row is left, since the page may have one
    obtain hzero | rfl := List.take_eq_nil_iff.mp (List.getLast?_eq_none_iff.mp hlast)
    · omega
    · have hc : lastPosition r.page.order ((([] : List Row).take (r.page.size.toNat + 1)).take
          r.page.size.toNat) = .ok none := by rw [lastPosition]; simp
      refine ⟨_, _, take_eq hc, ?_⟩
      exact {
        rows := by simp
        position := rfl
        next := by simp
        reachedEnd := by simp
        exhausted := by simp [isExhausted]
        wellPlaced := h
        order := rfl
        size := rfl
        moved := by simp
        stayed := fun _ => rfl }
  | some last =>
    have hmem : last ∈ left := List.mem_of_mem_take (List.mem_of_getLast? hlast)
    obtain ⟨c, hrow, hc⟩ := lastPosition_of_getLast? hlast (hleft last hmem)
    obtain ⟨hposition, hahead⟩ := Page.ahead_after_ofRow h.trimmed hrow
    refine ⟨_, _, take_eq (by rw [htake]; exact hc), ?_⟩
    exact {
      rows := htake
      position := rfl
      next := by simp only [hmore]; simp [Reader.position, hposition]
      reachedEnd := by simp only [hmore, ← decide_not, Nat.not_lt]
      exhausted := by
        simp only [hmore, isExhausted]
        split <;> simp_all
      wellPlaced := h.after_ofRow hrow
      order := rfl
      size := rfl
      moved := by
        intro last' hlast'
        simp only [htake, hlast, Option.some.injEq] at hlast'
        subst hlast'
        exact ⟨by simp [Reader.position, hposition], hahead⟩
      stayed := by
        intro hnil
        simp only [htake] at hnil
        rw [hnil] at hlast
        cases hlast }

/-- A call on a source that answers as a table delivers the rows left. -/
theorem next_delivers {σ : Type} (source : Source σ) (s : σ) {t : MemoryTable} {r : Reader}
    (h : r.page.WellPlaced) (ht : ∀ row ∈ t.rows, r.page.order.Complete row)
    (he : r.isExhausted = false) (hs : ∀ q, (source s q).1 = .ok (t.fetch q)) :
    ∃ q fetched r', r.request = .ok q ∧ r.next source s = (.ok fetched, r', (source s q).2) ∧
      r.Delivers (r.page.remaining t.rows) fetched r' := by
  obtain ⟨q, hq, ho, hl, hrow⟩ := r.request_eq h
  have hfetch := MemoryTable.fetch_eq h ht ho hrow hl
  have hleft : ∀ row ∈ r.page.remaining t.rows, r.page.order.Complete row :=
    fun row hm => ht row (Page.mem_remaining.mp hm).1
  -- the state of a reader has no part in what it takes from an answer
  obtain ⟨fetched, r', htake, hd⟩ := take_delivers (r := { r with state := .fetching }) h hleft
  refine ⟨q, fetched, r', hq, ?_, ?_⟩
  · have hbegun : Reader.request { r with state := .fetching } = .ok q := hq
    have hanswer : source s q = (.ok (t.fetch q), (source s q).2) := Prod.ext (hs q) rfl
    simp only [next, call, he, Bool.false_eq_true, if_false, hbegun]
    rw [hanswer, hfetch]
    simp only [Pending.settle, htake]
  · exact { hd with }

end Reader

end Keyset
