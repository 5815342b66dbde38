import Keyset.Reader.Basic

/-!
# Walks

A walk consumes a reader. It yields pages until the listing ends or a fetch fails; the error is
the last thing it yields, and a page without rows is not yielded. `collect` calls the reader
itself, until the end is reached, and keeps every page.
-/
namespace Keyset

/-- A reader that still has pages to yield, or nothing. -/
abbrev Walk := Option Reader

namespace Walk

/-- One step: what is yielded, if anything, and the walk and the source behind it. -/
def next {σ : Type} (source : Source σ) : Walk → σ →
    Option (Except FetchError FetchedPage) × Walk × σ
  | none, s => (none, none, s)
  | some r, s =>
    if r.isExhausted then (none, none, s)
    else match r.next source s with
      | (.ok p, r, s) => if p.isEmpty then (none, none, s) else (some (.ok p), some r, s)
      | (.error e, _, s) => (some (.error e), none, s)

/-- What the first `steps` steps yield. -/
def pages {σ : Type} (source : Source σ) : Nat → Walk → σ →
    List (Except FetchError FetchedPage) × σ
  | 0, _, s => ([], s)
  | steps + 1, w, s =>
    match w.next source s with
    | (none, _, s) => ([], s)
    | (some p, w, s) =>
      let (ps, s) := pages source steps w s
      (p :: ps, s)

/-- The rows of pages, and the error that ends them. -/
def rows (pages : List (Except FetchError FetchedPage)) : List (Except FetchError Row) :=
  pages.flatMap fun
    | .ok p => p.rows.map .ok
    | .error e => [.error e]

end Walk

namespace Reader

/-- Pages up to the end of the listing, or the error that came first. Nothing if the listing has
not ended after `calls` calls. -/
def collect {σ : Type} (source : Source σ) : Nat → Reader → σ →
    Option (Except FetchError (List FetchedPage) × Reader × σ)
  | 0, _, _ => none
  | calls + 1, r, s =>
    match r.next source s with
    | (.error e, r, s) => some (.error e, r, s)
    | (.ok p, r, s) =>
      if p.reachedEnd then some (.ok [p], r, s)
      else (collect source calls r s).map fun (ps, r, s) => (ps.map (p :: ·), r, s)

end Reader

end Keyset
