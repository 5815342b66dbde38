/-!
# URL-safe base64 without padding

Three bytes become four symbols of `A-Z`, `a-z`, `0-9`, `-`, `_`; one or two bytes at the end
become two or three. Reading is strict: padding and bits that encode nothing are refused, and an
error names the byte at fault and its offset.
-/
namespace Keyset.Text.Base64Url

inductive Error
  | symbol (byte : UInt8) (offset : Nat)
  | length (n : Nat)
  | lastSymbol (byte : UInt8) (offset : Nat)
  | padding
  deriving DecidableEq, Repr

def Error.message : Error → String
  | .symbol byte offset => s!"Invalid symbol {byte.toNat}, offset {offset}."
  | .length n => s!"Invalid input length: {n}"
  | .lastSymbol byte offset => s!"Invalid last symbol {byte.toNat}, offset {offset}."
  | .padding => "Invalid padding"

/-- The symbol of a six-bit value, as an ASCII code. -/
def symbol (v : Nat) : UInt8 :=
  UInt8.ofNat <|
    if v < 26 then v + 65 else if v < 52 then v + 71 else if v < 62 then v - 4
    else if v = 62 then 45 else 95

def value? (b : UInt8) : Option Nat :=
  let n := b.toNat
  if 65 ≤ n ∧ n ≤ 90 then some (n - 65)
  else if 97 ≤ n ∧ n ≤ 122 then some (n - 71)
  else if 48 ≤ n ∧ n ≤ 57 then some (n + 4)
  else if n = 45 then some 62
  else if n = 95 then some 63
  else none

theorem value?_symbol : ∀ v < 64, value? (symbol v) = some v := by decide

/-- The ASCII code of `=`. -/
def pad : UInt8 := 61

def encode : List UInt8 → List UInt8
  | [] => []
  | [a] => [symbol (a.toNat / 4), symbol (a.toNat % 4 * 16)]
  | [a, b] =>
    [symbol (a.toNat / 4), symbol (a.toNat % 4 * 16 + b.toNat / 16), symbol (b.toNat % 16 * 4)]
  | a :: b :: c :: rest =>
    symbol (a.toNat / 4) :: symbol (a.toNat % 4 * 16 + b.toNat / 16) ::
      symbol (b.toNat % 16 * 4 + c.toNat / 64) :: symbol (c.toNat % 64) :: encode rest

/-- The values of the last four symbols or fewer, and whether padding follows. Padding may only
fill places behind the second one, up to the end. -/
def lastValues (offset place : Nat) : List UInt8 → Except Error (List Nat × Bool)
  | [] => .ok ([], false)
  | b :: bs =>
    if b = pad then
      if place < 2 ∨ bs.any (· ≠ pad) then .error (.symbol b (offset + place)) else .ok ([], true)
    else match value? b with
      | none => .error (.symbol b (offset + place))
      | some v => (lastValues offset (place + 1) bs).map fun (vs, padded) => (v :: vs, padded)

/-- The bytes of the last four symbols or fewer. -/
def decodeLast (offset : Nat) (bs : List UInt8) : Except Error (List UInt8) := do
  let (vs, padded) ← lastValues offset 0 bs
  if bs.length ≠ 0 ∧ vs.length < 2 then throw (.length (offset + vs.length))
  if padded then throw .padding
  let last := Error.lastSymbol (bs[vs.length - 1]?.getD pad) (offset + vs.length - 1)
  match vs with
  | [a, b] => if b % 16 = 0 then return [UInt8.ofNat (a * 4 + b / 16)] else throw last
  | [a, b, c] =>
    if c % 4 = 0 then
      return [UInt8.ofNat (a * 4 + b / 16), UInt8.ofNat (b % 16 * 16 + c / 4)]
    else throw last
  | [a, b, c, d] =>
    return [UInt8.ofNat (a * 4 + b / 16), UInt8.ofNat (b % 16 * 16 + c / 4),
      UInt8.ofNat (c % 4 * 64 + d)]
  | _ => return []

def symbolAt (b : UInt8) (offset : Nat) : Except Error Nat :=
  match value? b with
  | some v => .ok v
  | none => .error (.symbol b offset)

def decodeFrom (offset : Nat) : List UInt8 → Except Error (List UInt8)
  | s :: t :: u :: v :: rest =>
    if rest.isEmpty then decodeLast offset [s, t, u, v]
    else do
      let a ← symbolAt s offset
      let b ← symbolAt t (offset + 1)
      let c ← symbolAt u (offset + 2)
      let d ← symbolAt v (offset + 3)
      let bytes ← decodeFrom (offset + 4) rest
      return UInt8.ofNat (a * 4 + b / 16) :: UInt8.ofNat (b % 16 * 16 + c / 4) ::
        UInt8.ofNat (c % 4 * 64 + d) :: bytes
  | bs => decodeLast offset bs

/-- A stray byte that makes the length one too many is reported before all else. -/
def strayLast? (bs : List UInt8) : Option Error :=
  if bs.length % 4 = 1 then
    (bs.getLast?.filter fun b => b ≠ pad && (value? b).isNone).map fun b =>
      .symbol b (bs.length - 1)
  else none

def decode (bs : List UInt8) : Except Error (List UInt8) :=
  match strayLast? bs with
  | some e => .error e
  | none => decodeFrom 0 bs

end Keyset.Text.Base64Url
