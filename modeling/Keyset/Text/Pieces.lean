/-!
# Pieces of a text

`pieces sep cs` are the runs of characters between separators, empty runs included.
-/
namespace Keyset.Text

def pieces (sep : Char) : List Char → List (List Char)
  | [] => [[]]
  | c :: cs =>
    if c = sep then [] :: pieces sep cs
    else match pieces sep cs with
      | [] => [[c]]
      | p :: ps => (c :: p) :: ps

theorem pieces_ne_nil (sep : Char) (cs : List Char) : pieces sep cs ≠ [] := by
  cases cs with
  | nil => simp [pieces]
  | cons c cs =>
    simp only [pieces]
    split
    · simp
    · split <;> simp

/-- The pieces of a whole text. -/
def split (sep : Char) (s : String) : List String := (pieces sep s.toList).map String.ofList

end Keyset.Text
