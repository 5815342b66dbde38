/-!
# Whole numbers as text

Reading takes an optional sign and at least one decimal digit, with any number of leading zeros;
`Nat.toDigits 10` and `toString` write. A number that does not fit the width asked for is refused,
never wrapped.
-/
namespace Keyset.Number

/-- The number that one or more decimal digits denote. -/
def natural? (cs : List Char) : Option Nat :=
  if cs ≠ [] ∧ cs.all Char.isDigit then some (Nat.ofDigitChars 10 cs 0) else none

/-- An integer: digits after an optional `+` or `-`. -/
def integer? : List Char → Option Int
  | '+' :: cs => (natural? cs).map Int.ofNat
  | '-' :: cs => (natural? cs).map fun n => -Int.ofNat n
  | cs => (natural? cs).map Int.ofNat

def int64? (cs : List Char) : Option Int64 := do
  let n ← integer? cs
  if Int64.minValue.toInt ≤ n ∧ n ≤ Int64.maxValue.toInt then some (Int64.ofInt n) else none

/-- An unsigned number takes a `+`, but no `-`, not even before a zero. -/
def uint64? : List Char → Option UInt64
  | '+' :: cs => fit (natural? cs)
  | cs => fit (natural? cs)
where
  fit (n : Option Nat) : Option UInt64 := n.bind fun n =>
    if n < UInt64.size then some (UInt64.ofNat n) else none

theorem natural?_toDigits (n : Nat) : natural? (Nat.toDigits 10 n) = some n := by
  have h : (Nat.toDigits 10 n).all Char.isDigit = true :=
    List.all_eq_true.2 fun c hc => Nat.isDigit_of_mem_toDigits (by decide) (by decide) hc
  simp [natural?, h, Nat.toDigits_ne_nil, Nat.ofDigitChars_toDigits]

theorem natural?_eq_some_iff {cs : List Char} {n : Nat} :
    natural? cs = some n ↔
      cs ≠ [] ∧ (∀ c ∈ cs, c.isDigit = true) ∧ Nat.ofDigitChars 10 cs 0 = n := by
  by_cases h : cs = [] <;> by_cases hd : ∀ c ∈ cs, c.isDigit = true <;> simp [natural?, h, hd]

end Keyset.Number
