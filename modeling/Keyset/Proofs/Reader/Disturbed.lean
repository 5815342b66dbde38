import Keyset.Reader.Basic

/-! # Failures and dropped calls do not show

A call that fails puts the reader back (`meet_error`); one that is dropped
leaves its page alone (`meet_dropped`). So a reader some of whose calls fail or
are dropped stays like one that is never disturbed (`Like`), except that the
other may have returned a page more (`meet_cases`), and both return the same
pages in the same order (`pages_undisturbed`). -/

namespace Keyset.Reader

/-- What becomes of a call while it waits for the source. -/
inductive Fate where
  | completes
  | fails (e : SourceError)
  | dropped
  deriving DecidableEq

/-- What the source answers, if the call is not dropped. -/
def Fate.answer? (answer : Request → Answer) (q : Request) : Fate → Option Answer
  | .completes => some (answer q)
  | .fails e => some (.error e)
  | .dropped => none

/-- A source of fixed content. -/
def fixed (answer : Request → Answer) : Source Unit := fun s q => (answer q, s)

/-- A call and its fate: what is returned, unless the call is dropped, and the
reader behind it. -/
def meet (answer : Request → Answer) (r : Reader) :
    Fate → Option (Except FetchError FetchedPage) × Reader
  | .completes =>
    let (result, r, _) := r.next (fixed answer) ()
    (some result, r)
  | .fails e =>
    let (result, r, _) := r.next (fixed fun _ => .error e) ()
    (some result, r)
  | .dropped =>
    match r.call with
    | .returned result r => (some result, r)
    | .waiting p => (none, p.reader)

/-- The calls with these fates, one after the other. -/
def meets (answer : Request → Answer) : Reader → List Fate →
    List (Option (Except FetchError FetchedPage)) × Reader
  | r, [] => ([], r)
  | r, fate :: fates =>
    let (result, r) := r.meet answer fate
    let (results, r) := meets answer r fates
    (result :: results, r)

/-- The page that a call returned, if it returned one. -/
def page? : Option (Except FetchError FetchedPage) → Option FetchedPage
  | some (.ok fetched) => some fetched
  | _ => none

/-- The pages that calls with these fates return. -/
def pages (answer : Request → Answer) (r : Reader) (fates : List Fate) : List FetchedPage :=
  (r.meets answer fates).1.filterMap page?

variable {answer : Request → Answer} {r c : Reader}

/-! ## One call -/

theorem call_of_exhausted (he : r.isExhausted = true) :
    r.call = .returned (.ok (.exhausted r.position)) r := by
  simp only [call, he, if_true]

theorem call_of_error {e : CursorError} (he : r.isExhausted = false) (hq : r.request = .error e) :
    r.call = .returned (.error (.cursor e)) r := by
  have hbegun : Reader.request { r with state := .fetching } = .error e := hq
  simp only [call, he, Bool.false_eq_true, if_false, hbegun]

theorem call_of_request {q : Request} (he : r.isExhausted = false) (hq : r.request = .ok q) :
    r.call = .waiting ⟨r.dropped, r.state, q⟩ := by
  have hbegun : Reader.request { r with state := .fetching } = .ok q := hq
  simp only [call, he, Bool.false_eq_true, if_false, hbegun, dropped]

/-- Taking an answer fails only for the sake of its last row. -/
theorem take_ne_source {answered : List Row} {position : Option Cursor} {e : SourceError} :
    r.take answered ≠ .error (.source position e) := by
  intro h
  cases hl : lastPosition r.page.order (answered.take r.page.size.toNat) with
  | ok last =>
    simp only [take, hl, bind, Except.bind] at h
    cases h
  | error e =>
    simp only [take, hl, bind, Except.bind] at h
    unfold lastPosition at hl
    repeat' split at hl
    all_goals simp_all

/-- A call that waited either returns a page or puts the reader back. A failure
of the source tells the position. -/
theorem settle_cases (r : Reader) (q : Request) (a : Answer) :
    (∃ fetched r', Pending.settle ⟨r.dropped, r.state, q⟩ a = (.ok fetched, r')) ∨
    ∃ e, Pending.settle ⟨r.dropped, r.state, q⟩ a = (.error e, r) ∧
      ∀ position failure, e = .source position failure → position = r.position := by
  cases a with
  | error e =>
    refine Or.inr ⟨_, rfl, fun position failure h => ?_⟩
    cases h
    rfl
  | ok rows =>
    cases htake : r.dropped.take rows with
    | ok taken => exact Or.inl ⟨taken.1, taken.2, by simp only [Pending.settle, htake]⟩
    | error e =>
      refine Or.inr ⟨e, by simp only [Pending.settle, htake]; rfl, fun position failure h => ?_⟩
      rw [h] at htake
      exact absurd htake take_ne_source

theorem meet_of_returned {result : Except FetchError FetchedPage} {r' : Reader}
    (h : r.call = .returned result r') (fate : Fate) :
    r.meet answer fate = (some result, r') := by
  cases fate <;> simp only [meet, next, h]

theorem meet_of_waiting {p : Pending} (h : r.call = .waiting p) (fate : Fate) :
    r.meet answer fate = match fate.answer? answer p.request with
      | some a => (some (p.settle a).1, (p.settle a).2)
      | none => (none, p.reader) := by
  cases fate <;> simp only [meet, next, h, fixed, Fate.answer?]

/-- A call that returns an error leaves the reader as it was. -/
theorem meet_error {fate : Fate} {e : FetchError} {r' : Reader}
    (h : r.meet answer fate = (some (.error e), r')) :
    r' = r ∧ ∀ position failure, e = .source position failure → position = r.position := by
  cases he : r.isExhausted with
  | true =>
    rw [meet_of_returned (call_of_exhausted he)] at h
    cases h
  | false =>
    cases hq : r.request with
    | error e' =>
      rw [meet_of_returned (call_of_error he hq)] at h
      cases h
      exact ⟨rfl, fun _ _ h => by cases h⟩
    | ok q =>
      rw [meet_of_waiting (call_of_request he hq)] at h
      split at h
      · rename_i a _
        rcases r.settle_cases q a with ⟨fetched, r'', hs⟩ | ⟨e', hs, hposition⟩
        · rw [hs] at h
          cases h
        · rw [hs] at h
          cases h
          exact ⟨rfl, hposition⟩
      · cases h

/-- A call that is dropped leaves the page as it was, and so the next call sends
the same request. -/
theorem meet_dropped {fate : Fate} {r' : Reader} (h : r.meet answer fate = (none, r')) :
    r' = r.dropped ∧ ∃ q, r.call = .waiting ⟨r.dropped, r.state, q⟩ ∧
      r'.call = .waiting ⟨r'.dropped, r'.state, q⟩ := by
  cases he : r.isExhausted with
  | true =>
    rw [meet_of_returned (call_of_exhausted he)] at h
    cases h
  | false =>
    cases hq : r.request with
    | error e' =>
      rw [meet_of_returned (call_of_error he hq)] at h
      cases h
    | ok q =>
      rw [meet_of_waiting (call_of_request he hq)] at h
      split at h
      · cases h
      · cases h
        exact ⟨rfl, q, call_of_request he hq, call_of_request (r := r.dropped) rfl hq⟩

/-! ## Alike readers -/

/-- Readers that differ at most in whether they say that a fetch has begun. -/
structure Like (r c : Reader) : Prop where
  page : r.page = c.page
  pagesRead : r.pagesRead = c.pagesRead
  ended : r.isExhausted = c.isExhausted

theorem Like.refl (r : Reader) : Like r r := ⟨rfl, rfl, rfl⟩

theorem Like.dropped (h : Like r c) : r.dropped = c.dropped := by
  simp only [Reader.dropped, h.page, h.pagesRead]

/-- The same answer settles calls of readers alike with the same page, or puts
both back. -/
theorem settle_like (h : Like r c) (q : Request) (a : Answer) :
    (∃ fetched r', Pending.settle ⟨r.dropped, r.state, q⟩ a = (.ok fetched, r') ∧
      Pending.settle ⟨c.dropped, c.state, q⟩ a = (.ok fetched, r')) ∨
    ∃ e, Pending.settle ⟨r.dropped, r.state, q⟩ a = (.error e, r) ∧
      Pending.settle ⟨c.dropped, c.state, q⟩ a = (.error e, c) := by
  cases a with
  | error e =>
    refine Or.inr ⟨.source r.position e, rfl, ?_⟩
    rw [position, h.page]
    rfl
  | ok rows =>
    cases htake : c.dropped.take rows with
    | ok taken =>
      refine Or.inl ⟨taken.1, taken.2, ?_, ?_⟩
      · simp only [Pending.settle, h.dropped, htake]
      · simp only [Pending.settle, htake]
    | error e =>
      have htake' : r.dropped.take rows = .error e := by rw [h.dropped, htake]
      refine Or.inr ⟨e, ?_, ?_⟩
      · simp only [Pending.settle, htake']
        rfl
      · simp only [Pending.settle, htake]
        rfl

/-- A call of a reader returns the page that a call of one alike returns that
completes, or leaves the readers alike. In this case the other call, if it
completes too, returns no page either. -/
theorem meet_cases (answer : Request → Answer) (h : Like r c) (fate : Fate) :
    (∃ fetched r' c', r.meet answer fate = (some (.ok fetched), r') ∧
      c.meet answer .completes = (some (.ok fetched), c') ∧ Like r' c') ∨
    ∃ result r', r.meet answer fate = (result, r') ∧ page? result = none ∧ Like r' c ∧
      (fate = .completes → ∃ result', c.meet answer .completes = (result', c) ∧
        page? result' = none) := by
  cases he : c.isExhausted with
  | true =>
    refine Or.inl ⟨_, r, c, meet_of_returned (call_of_exhausted (h.ended.trans he)) fate, ?_, h⟩
    rw [meet_of_returned (call_of_exhausted he), position, position, h.page]
  | false =>
    have her : r.isExhausted = false := h.ended.trans he
    have hrequest : r.request = c.request := by rw [request, request, h.page]
    cases hq : c.request with
    | error e =>
      exact Or.inr ⟨_, r, meet_of_returned (call_of_error her (hrequest.trans hq)) fate, rfl, h,
        fun _ => ⟨_, meet_of_returned (call_of_error he hq) _, rfl⟩⟩
    | ok q =>
      rw [meet_of_waiting (call_of_request her (hrequest.trans hq)),
        meet_of_waiting (call_of_request he hq)]
      cases fate with
      | completes =>
        simp only [Fate.answer?]
        rcases settle_like h q (answer q) with ⟨fetched, r', hr, hc⟩ | ⟨e, hr, hc⟩
        · exact Or.inl ⟨fetched, r', r', by rw [hr], by rw [hc], Like.refl r'⟩
        · exact Or.inr ⟨_, r, by rw [hr], rfl, h, fun _ => ⟨_, by rw [hc], rfl⟩⟩
      | fails e =>
        exact Or.inr ⟨_, r, rfl, rfl, h, fun hf => by cases hf⟩
      | dropped =>
        exact Or.inr ⟨_, r.dropped, rfl, rfl, ⟨h.page, h.pagesRead, he.symm⟩, fun hf => by cases hf⟩

/-! ## Whole schedules -/

theorem pages_cons (r : Reader) (fate : Fate) (fates : List Fate) :
    r.pages answer (fate :: fates) =
      (page? (r.meet answer fate).1).toList ++ (r.meet answer fate).2.pages answer fates := by
  rw [pages, meets, List.filterMap_cons]
  cases page? (r.meet answer fate).1 <;> rfl

/-- One call more returns one page more at most. -/
theorem pages_replicate_succ (answer : Request → Answer) (c : Reader) (n : Nat) :
    c.pages answer (List.replicate n .completes) <+:
      c.pages answer (List.replicate (n + 1) .completes) := by
  induction n generalizing c with
  | zero => exact List.nil_prefix
  | succ n ih =>
    rw [List.replicate_succ, List.replicate_succ, pages_cons, pages_cons]
    exact (List.prefix_append_right_inj _).mpr (ih _)

/-- A disturbed reader returns no other pages than one that is not disturbed. -/
theorem pages_prefix_clean (h : Like r c) (fates : List Fate) :
    r.pages answer fates <+: c.pages answer (List.replicate fates.length .completes) := by
  induction fates generalizing r c with
  | nil => exact List.nil_prefix
  | cons fate fates ih =>
    rcases meet_cases answer h fate with
      ⟨fetched, r', c', hr, hc, h'⟩ | ⟨result, r', hr, hnone, h', -⟩
    · rw [List.length_cons, List.replicate_succ, pages_cons, pages_cons, hr, hc]
      exact (List.prefix_append_right_inj _).mpr (ih h')
    · rw [pages_cons, hr]
      simp only [hnone, Option.toList_none, List.nil_append]
      exact (ih h').trans (pages_replicate_succ answer c fates.length)

/-- A disturbed reader returns at least the pages for which its calls that
complete suffice. -/
theorem clean_prefix_pages (h : Like r c) (fates : List Fate) :
    c.pages answer (List.replicate (fates.count .completes) .completes) <+:
      r.pages answer fates := by
  induction fates generalizing r c with
  | nil => exact List.nil_prefix
  | cons fate fates ih =>
    rcases meet_cases answer h fate with
      ⟨fetched, r', c', hr, hc, h'⟩ | ⟨result, r', hr, hnone, h', hcompletes⟩
    · have hsucc : c.pages answer (List.replicate (fates.count .completes + 1) .completes) <+:
          r.pages answer (fate :: fates) := by
        rw [List.replicate_succ, pages_cons, pages_cons, hr, hc]
        exact (List.prefix_append_right_inj _).mpr (ih h')
      by_cases hf : fate = .completes
      · rw [hf, List.count_cons_self]
        exact hf ▸ hsucc
      · rw [List.count_cons_of_ne hf]
        exact (pages_replicate_succ answer c _).trans hsucc
    · rw [pages_cons, hr]
      simp only [hnone, Option.toList_none, List.nil_append]
      by_cases hf : fate = .completes
      · obtain ⟨result', hc, hnone'⟩ := hcompletes hf
        rw [hf, List.count_cons_self, List.replicate_succ, pages_cons, hc]
        simp only [hnone', Option.toList_none, List.nil_append]
        exact ih h'
      · rw [List.count_cons_of_ne hf]
        exact ih h'

/-- **Failures and dropped calls do not show.** Let the calls of a reader on a
source of fixed content complete, fail at the source, or be dropped while they
wait for it, in any order. The pages returned are the first ones of those that a
reader returns that is never disturbed, and at least as many as for the calls
that complete. A call that returns an error leaves the reader as it was, and an
error of the source tells the position. A call that is dropped leaves the page,
and the next one sends the same request. -/
theorem pages_undisturbed (answer : Request → Answer) (r : Reader) (fates : List Fate) :
    (r.pages answer fates <+: r.pages answer (List.replicate fates.length .completes) ∧
      r.pages answer (List.replicate (fates.count .completes) .completes) <+:
        r.pages answer fates) ∧
    ∀ (s s' : Reader) (fate : Fate),
      (∀ e, s.meet answer fate = (some (.error e), s') → s' = s ∧
        ∀ position failure, e = .source position failure → position = s.position) ∧
      (s.meet answer fate = (none, s') →
        s'.page = s.page ∧ s'.position = s.position ∧ s'.pagesRead = s.pagesRead ∧
        ∃ p p', s.call = .waiting p ∧ s'.call = .waiting p' ∧ p'.request = p.request) := by
  refine ⟨⟨pages_prefix_clean (Like.refl r) fates, clean_prefix_pages (Like.refl r) fates⟩, ?_⟩
  intro s s' fate
  refine ⟨fun e h => meet_error h, fun h => ?_⟩
  obtain ⟨rfl, q, hcall, hcall'⟩ := meet_dropped h
  exact ⟨rfl, rfl, rfl, _, _, hcall, hcall', rfl⟩

end Keyset.Reader
