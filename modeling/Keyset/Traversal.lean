import Keyset.Reader.Walk
import Keyset.Source.Flaky

/-!
# Traversals of posts

Posts are rows with an integer `id`; they make small listings on which whole traversals, also
interrupted ones, can be followed by their ids.
-/
namespace Keyset

namespace Post

/-- A post with its time of creation. -/
def created (id createdAt : Int64) : Row :=
  .ofPairs "posts" [("id", .int id), ("created_at", .int createdAt)]

/-- A post whose score may be null. -/
def scored (id : Int64) (score : Option Int64) : Row :=
  .ofPairs "posts" [("id", .int id), ("score", (score.map Value.int).getD .null)]

/-- Posts 1 to `n`, created every ten seconds. -/
def numbered (n : Nat) : List Row :=
  (List.range n).map fun i => created (Int64.ofNat (i + 1)) (Int64.ofNat (10 * (i + 1)))

def id? (row : Row) : Option Int64 :=
  match row.value "id" with
  | .int n => some n
  | _ => none

def ids? (rows : List Row) : Option (List Int64) := rows.mapM id?

end Post

namespace Traversal

/-- The most pages a traversal may have. -/
def pageLimit : Nat := 10000

/-- All pages from a reader on. -/
def pages (r : Reader) (t : FlakyTable) :
    Option (Except FetchError (List FetchedPage) × Reader × FlakyTable) :=
  r.collect FlakyTable.source pageLimit t

/-- The pages of the next `n` calls, past the end of the listing too. -/
def calls (n : Nat) (r : Reader) (t : FlakyTable) :
    Except FetchError (List FetchedPage × Reader × FlakyTable) :=
  match n with
  | 0 => .ok ([], r, t)
  | n + 1 =>
    match r.next FlakyTable.source t with
    | (.error e, _, _) => .error e
    | (.ok p, r, t) => (calls n r t).map fun (ps, r, t) => (p :: ps, r, t)

/-- A traversal in three parts, the second of them while the storage is off. -/
structure Interrupted where
  before : List FetchedPage
  during : Except FetchError (List FetchedPage)
  after : List FetchedPage
  /-- The requests up to the end of the outage, and in all. -/
  callsDuring : Nat
  callsAfter : Nat

/-- A traversal that is interrupted behind the first `n` calls. -/
def interrupted (n : Nat) (r : Reader) (t : FlakyTable) : Option (Except FetchError Interrupted) :=
  match calls n r t with
  | .error e => some (.error e)
  | .ok (before, r, t) => do
    let (during, r, t) ← pages r { t with failing := true }
    let callsDuring := t.calls
    let (after, _, t) ← pages r { t with failing := false }
    match after with
    | .error e => some (.error e)
    | .ok after => some (.ok ⟨before, during, after, callsDuring, t.calls⟩)

end Traversal

end Keyset
