import Keyset.Page.Basic
import Keyset.Proofs.Condition.Seek
import Mathlib.Data.UInt

/-! # What decides the size of a page

A page is changed by requesting a size, by setting a policy, and by placing it
behind a position, which is also the step to the next page. The last change of
each kind decides, wherever it stands among the others (`changed_eq`). So the
size is the last one requested, under the last policy. A first page of its own
accord requests what the standard policy has as its default, and a policy that is
set later takes that for a request: its own default does not count until a size
that is not positive is requested (`size_of_changes`). -/

namespace Keyset

namespace Page

/-- A change to a page. The step to the next page places it, too. -/
inductive Change where
  | request (size : Int64)
  | govern (policy : SizePolicy)
  | place (position : Option Cursor)

namespace Change

def requested? : Change → Option Int64
  | .request size => some size
  | .govern _ | .place _ => none

def policy? : Change → Option SizePolicy
  | .govern policy => some policy
  | .request _ | .place _ => none

/-- A cursor that sets nothing is no position. -/
def position? : Change → Option (Option Cursor)
  | .place position => some (position.filter fun c => !c.isEmpty)
  | .request _ | .govern _ => none

end Change

def change (p : Page) : Change → Page
  | .request size => p.withSize size
  | .govern policy => p.withPolicy policy
  | .place position => p.after position

/-- The page behind all the changes. -/
def changed (p : Page) (changes : List Change) : Page := changes.foldl change p

/-- The size requested last, if any was. -/
def lastRequested? (changes : List Change) : Option Int64 :=
  (changes.filterMap Change.requested?).getLast?

/-- The policy set last, or the standard one. -/
def lastPolicy (changes : List Change) : SizePolicy :=
  (changes.filterMap Change.policy?).getLast?.getD .standard

/-- Each field is what its last change made it, and the ordering has none. -/
theorem changed_eq (p : Page) (changes : List Change) :
    p.changed changes =
      { order := p.order
        position := (changes.filterMap Change.position?).getLast?.getD p.position
        requested := (changes.filterMap Change.requested?).getLast?.getD p.requested
        policy := (changes.filterMap Change.policy?).getLast?.getD p.policy } := by
  induction changes generalizing p with
  | nil => rfl
  | cons c cs ih =>
    rw [changed, List.foldl_cons, ← changed, ih]
    cases c with
    | request size =>
      simp only [change, withSize, List.filterMap_cons, Change.requested?, Change.policy?,
        Change.position?, List.getLast?_cons, Option.getD_some]
    | govern policy =>
      simp only [change, withPolicy, List.filterMap_cons, Change.requested?, Change.policy?,
        Change.position?, List.getLast?_cons, Option.getD_some]
    | place position =>
      simp only [change, after, List.filterMap_cons, Change.requested?, Change.policy?,
        Change.position?, List.getLast?_cons, Option.getD_some]

/-- What the first page requests of its own accord. -/
theorem size_of_no_request {order : SortOrder} {changes : List Change}
    (h : lastRequested? changes = none) :
    ((first order).changed changes).size = min 20 (lastPolicy changes).maximum := by
  rw [changed_eq, size, ← lastRequested?, h]
  rfl

theorem size_of_request {order : SortOrder} {changes : List Change} {requested : Int64}
    (h : lastRequested? changes = some requested) :
    ((first order).changed changes).size = (lastPolicy changes).clamp requested := by
  rw [changed_eq, size, ← lastRequested?, h]
  rfl

/-- **The last request and the last policy decide.** Let the first page of an ordering be changed
in any way. Its ordering stays. If sizes were requested, its size is the last one under the policy
set last. If none was, it has twenty rows or as many as the last policy allows. So the default of
that policy counts for such a page only if it is twenty, or if it is less and no more are
allowed. -/
theorem size_of_changes (order : SortOrder) (changes : List Change) :
    ((first order).changed changes).order = order ∧
    match lastRequested? changes with
    | some requested =>
      ((first order).changed changes).size = (lastPolicy changes).clamp requested
    | none =>
      ((first order).changed changes).size = min 20 (lastPolicy changes).maximum ∧
      (((first order).changed changes).size = (lastPolicy changes).default ↔
        (lastPolicy changes).default = 20 ∧ 20 ≤ (lastPolicy changes).maximum ∨
        (lastPolicy changes).default = (lastPolicy changes).maximum ∧
          (lastPolicy changes).maximum < 20) := by
  refine ⟨by rw [changed_eq]; rfl, ?_⟩
  cases h : lastRequested? changes with
  | some requested => exact size_of_request h
  | none =>
    have hsize : ((first order).changed changes).size = min 20 (lastPolicy changes).maximum :=
      size_of_no_request h
    refine ⟨hsize, ?_⟩
    rw [hsize]
    generalize (lastPolicy changes).maximum = maximum
    generalize (lastPolicy changes).default = default
    rw [← UInt64.toNat_inj, ← UInt64.toNat_inj, ← UInt64.toNat_inj, UInt64.toNat_min,
      UInt64.le_iff_toNat_le, UInt64.lt_iff_toNat_lt]
    have htwenty : (20 : UInt64).toNat = 20 := rfl
    omega

end Page

/-- Under a policy for five posts of which at most five hundred are allowed, the first page of the
ranking has twenty posts, though nobody requested a size. -/
theorem Post.default_passed_over :
    Page.lastRequested? [.govern (.of 5 500)] = none ∧
    Page.lastPolicy [.govern (.of 5 500)] = .of 5 500 ∧ (SizePolicy.of 5 500).default = 5 ∧
    ((Page.first ranking).changed [.govern (.of 5 500)]).size = 20 := by
  refine ⟨rfl, rfl, rfl, rfl⟩

end Keyset
