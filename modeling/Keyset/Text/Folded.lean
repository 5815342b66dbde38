/-!
# Letter case

Names are compared without regard to the case of the letters `A` to `Z`. Other letters keep their
case: `É` and `é` name different columns.
-/
namespace Keyset.Text

/-- The text with `A` to `Z` in lower case. -/
def fold (s : String) : String := String.ofList (s.toList.map Char.toLower)

/-- Equality up to the case of `A` to `Z`. -/
def sameFolded (a b : String) : Bool := fold a == fold b

theorem sameFolded_iff {a b : String} : sameFolded a b = true ↔ fold a = fold b := by
  simp [sameFolded]

theorem sameFolded_refl (a : String) : sameFolded a a = true := by simp [sameFolded]

end Keyset.Text
