/-!
# Hexadecimal digits

Either case is read, lower case is written, and the width is fixed.
-/
namespace Keyset.Number

def hexDigit? (c : Char) : Option Nat :=
  if c.isDigit then some (c.toNat - '0'.toNat)
  else if 'a' ≤ c ∧ c ≤ 'f' then some (c.toNat - 'a'.toNat + 10)
  else if 'A' ≤ c ∧ c ≤ 'F' then some (c.toNat - 'A'.toNat + 10)
  else none

/-- The number that hexadecimal digits denote, from the most significant on. -/
def ofHex? (cs : List Char) : Option Nat :=
  cs.foldlM (fun n c => (hexDigit? c).map (16 * n + ·)) 0

/-- The last `width` hexadecimal digits of a number. -/
def hex : Nat → Nat → List Char
  | 0, _ => []
  | width + 1, n => hex width (n / 16) ++ [Nat.digitChar (n % 16)]

theorem length_hex (width n : Nat) : (hex width n).length = width := by
  induction width generalizing n with
  | zero => rfl
  | succ width ih => simp [hex, ih]

theorem hexDigit?_digitChar {n : Nat} (h : n < 16) : hexDigit? n.digitChar = some n := by
  revert h
  revert n
  decide

theorem ofHex?_hex (width n : Nat) : ofHex? (hex width n) = some (n % Nat.pow 16 width) := by
  induction width generalizing n with
  | zero => simp [hex, ofHex?, Nat.mod_one]
  | succ width ih =>
    have h := ih (n / 16)
    simp only [ofHex?] at h
    have h16 : n % 16 < 16 := Nat.mod_lt _ (by decide)
    simp only [ofHex?, hex, List.foldlM_append, h, List.foldlM_cons, List.foldlM_nil,
      hexDigit?_digitChar h16, Option.map_some, Option.pure_def, Option.bind_eq_bind,
      Option.bind_some]
    simp only [Nat.pow_eq]
    rw [Nat.pow_succ', Nat.mod_mul]
    congr 1
    omega

end Keyset.Number
