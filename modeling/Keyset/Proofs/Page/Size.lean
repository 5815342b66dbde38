import Keyset.Proofs.Reader.History
import Keyset.Proofs.Reader.Progress
import Keyset.Settings
import Keyset.Sql.Seek

/-! # Page sizes and limits

A policy that is made, by itself or for settings, has a positive default that is
not above its maximum, so a page size lies between one and the maximum. A limit
is one row more, unless the size is the largest number there is. No requested
size is as large, so this leaves pages of the largest default
(`Page.limit_one_more_iff`). Their limit is zero: a table answers with no rows,
and the reader takes that for the end (`Reader.next_of_limit_zero`). -/

namespace Keyset

/-! ## Policies -/

namespace SizePolicy

/-- The policies of two numbers, and those of settings that are accepted. -/
inductive Made : SizePolicy → Prop where
  | sizes (default maximum : UInt64) : Made (.of default maximum)
  | json {text : String} {s : Settings} (accepted : Settings.ofJson text = .ok s) : Made s.policy
  | environment {lookup : String → Option String} {s : Settings}
      (accepted : Settings.ofEnvironment lookup = .ok s) : Made s.policy

variable {p : SizePolicy}

theorem Made.exists_of (h : p.Made) : ∃ default maximum, p = .of default maximum := by
  cases h with
  | sizes default maximum => exact ⟨default, maximum, rfl⟩
  | json => exact ⟨_, _, rfl⟩
  | environment => exact ⟨_, _, rfl⟩

theorem Made.one_le_clamp (h : p.Made) (requested : Int64) : 1 ≤ (p.clamp requested).toNat := by
  obtain ⟨default, maximum, rfl⟩ := h.exists_of
  exact SizePolicy.one_le_clamp default maximum requested

theorem Made.default_le_maximum (h : p.Made) : p.default ≤ p.maximum := by
  obtain ⟨default, maximum, rfl⟩ := h.exists_of
  rw [UInt64.le_iff_toNat_le, of, UInt64.toNat_min]
  exact Nat.min_le_right _ _

theorem clamp_of_nonpos {requested : Int64} (h : requested ≤ 0) : p.clamp requested = p.default :=
  if_pos h

theorem clamp_of_pos {requested : Int64} (h : ¬requested ≤ 0) :
    (p.clamp requested).toNat = min requested.toNatClampNeg p.maximum.toNat := by
  rw [clamp, if_neg h, UInt64.toNat_min,
    Int64.toNat_toUInt64_of_le (Int64.le_of_lt (Int64.not_le.mp h))]

theorem Made.clamp_le_maximum (h : p.Made) (requested : Int64) :
    p.clamp requested ≤ p.maximum := by
  by_cases hasked : requested ≤ 0
  · rw [clamp_of_nonpos hasked]
    exact h.default_le_maximum
  · rw [UInt64.le_iff_toNat_le, clamp_of_pos hasked]
    exact Nat.min_le_right _ _

/-- There is a number above a size, unless the size is a default that none is above. -/
theorem clamp_add_one_lt_iff (requested : Int64) :
    (p.clamp requested).toNat + 1 < UInt64.size ↔
      (requested ≤ 0 → p.default.toNat + 1 < UInt64.size) := by
  by_cases hasked : requested ≤ 0
  · rw [clamp_of_nonpos hasked]
    exact ⟨fun hlt _ => hlt, fun hlt => hlt hasked⟩
  · have hsigned : requested.toNatClampNeg < 2 ^ 63 := Int64.toNatClampNeg_lt requested
    have hsize : 2 ^ 63 + 1 < UInt64.size := by decide
    rw [clamp_of_pos hasked]
    exact ⟨fun _ hle => absurd hle hasked, fun _ => by omega⟩

end SizePolicy

/-! ## Limits -/

namespace Page

variable {p : Page}

/-- A limit that is not one row more is no row at all. -/
theorem limit_eq_zero (h : p.limit.toNat ≠ p.size.toNat + 1) : p.limit = 0 := by
  have hbound : p.size.toNat < UInt64.size := p.size.toNat_lt
  have htop : p.size.toNat + 1 = UInt64.size := by
    have hover := mt (limit_eq_succ_iff p).mpr h
    omega
  rw [← UInt64.toNat_inj, limit, UInt64.toNat_add, UInt64.toNat_one, htop]
  rfl

theorem limit_of_select {table : Sql.Table} {s : Sql.Select} (h : p.select table = .ok s) :
    s.limit = some (.bound (.uint p.limit)) := by
  cases hc : p.lowerBound with
  | error e =>
    simp only [select, hc, bind, Except.bind] at h
    cases h
  | ok condition =>
    simp only [select, hc, bind, Except.bind] at h
    cases h
    rfl

end Page

/-- A reader that asks for no row is told of none, and comes to an end. -/
theorem Reader.next_of_limit_zero {r : Reader} {q : Request} (t : MemoryTable)
    (hlimit : r.page.limit = 0) (he : r.isExhausted = false) (hq : r.request = .ok q) :
    ∃ fetched r', r.next MemoryTable.source t = (.ok fetched, r', t) ∧ fetched.rows = [] ∧
      fetched.reachedEnd = true ∧ r'.isExhausted = true := by
  have hfetch : t.fetch q = [] := by
    rw [MemoryTable.fetch, (request_asks hq).2, hlimit]
    exact List.take_zero
  obtain ⟨fetched, r', hnext, hrows, hreached, -, hexhausted⟩ :=
    next_of_none_kept he hq (by rw [hfetch, List.take_nil])
  have hend : fetched.reachedEnd = true := by
    rw [hreached, hfetch]
    exact decide_eq_true (Nat.zero_le _)
  exact ⟨fetched, r', hnext, hrows, hend, hexhausted.trans hend⟩

/-- **Sizes and limits.** Under every policy that is made, a page has between one row and as many
as the maximum, whatever size is requested. The limit that a reader and a query ask for is one row
more exactly if a size was requested or the default is not the largest number there is. If it is
not one row more, a reader is at its end after one page without rows, whatever the table holds. -/
theorem Page.limit_one_more_iff {p : Page} (made : p.policy.Made) :
    1 ≤ p.size.toNat ∧ p.size ≤ p.policy.maximum ∧
    (p.limit.toNat = p.size.toNat + 1 ↔
      (p.requested ≤ 0 → p.policy.default.toNat + 1 < UInt64.size)) ∧
    (∀ table s, p.select table = .ok s → s.limit = some (.bound (.uint p.limit))) ∧
    ∀ (r : Reader) (q : Request), r.page = p → r.request = .ok q → q.limit = p.limit ∧
      (p.limit.toNat ≠ p.size.toNat + 1 → r.isExhausted = false → ∀ t, ∃ fetched r',
        r.next MemoryTable.source t = (.ok fetched, r', t) ∧ fetched.rows = [] ∧
        fetched.reachedEnd = true ∧ r'.isExhausted = true) := by
  refine ⟨made.one_le_clamp p.requested, made.clamp_le_maximum p.requested, ?_, ?_, ?_⟩
  · rw [limit_eq_succ_iff]
    exact SizePolicy.clamp_add_one_lt_iff p.requested
  · intro table s hselect
    exact limit_of_select hselect
  · intro r q hpage hq
    subst hpage
    refine ⟨(Reader.request_asks hq).2, ?_⟩
    intro hlimit he t
    exact Reader.next_of_limit_zero t (limit_eq_zero hlimit) he hq

/-- Under settings for at most three rows, a page of nine has three, and asks for four. -/
theorem Page.limit_of_three : ∃ s,
    Settings.ofJson "\x7b\"default_page_size\":2,\"maximum_page_size\":3\x7d" = .ok s ∧
    let p := ((Page.first Post.ranking).withPolicy s.policy).withSize 9
    p.size = 3 ∧ p.size ≤ p.policy.maximum ∧ p.limit.toNat = 4 := by
  have accepted : Settings.ofJson "\x7b\"default_page_size\":2,\"maximum_page_size\":3\x7d" =
      .ok ⟨2, 3⟩ := by decide +kernel
  obtain ⟨-, hmaximum, hlimit, -, -⟩ := Page.limit_one_more_iff
    (p := ((Page.first Post.ranking).withPolicy (Settings.policy ⟨2, 3⟩)).withSize 9)
    (.json accepted)
  exact ⟨_, accepted, rfl, hmaximum, hlimit.mpr fun _ => by decide⟩

/-- The largest sizes are accepted as settings. Then a page of no requested size has a limit of
zero, and four posts are walked in one page without any. -/
theorem Page.limit_wraps : ∃ s r fetched r',
    Settings.ofJson ("\x7b\"default_page_size\":18446744073709551615," ++
      "\"maximum_page_size\":18446744073709551615\x7d") = .ok s ∧
    s.policy = .of 18446744073709551615 18446744073709551615 ∧
    let p := ((Page.first Post.ranking).withPolicy s.policy).withSize 0
    p.size.toNat + 1 = UInt64.size ∧ p.limit = 0 ∧
    Reader.start p = .ok r ∧ r.next MemoryTable.source Post.four = (.ok fetched, r', Post.four) ∧
    Post.four.rows ≠ [] ∧ fetched.rows = [] ∧ fetched.reachedEnd = true := by
  have accepted : Settings.ofJson ("\x7b\"default_page_size\":18446744073709551615," ++
      "\"maximum_page_size\":18446744073709551615\x7d") =
      .ok ⟨18446744073709551615, 18446744073709551615⟩ := by decide +kernel
  obtain ⟨fetched, r', hnext, hrows, hend, -⟩ := Reader.next_of_limit_zero
    (r := ⟨((Page.first Post.ranking).withPolicy
      (.of 18446744073709551615 18446744073709551615)).withSize 0, .ready, 0⟩)
    Post.four rfl rfl rfl
  exact ⟨_, _, fetched, r', accepted, rfl, rfl, rfl, rfl, hnext, by decide, hrows, hend⟩

end Keyset
