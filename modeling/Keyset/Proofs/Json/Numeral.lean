import Keyset.Json.Scan
import Keyset.Proofs.Number.Digits

/-! # Numbers in JSON text

A numeral is an optional minus, a whole part that starts with zero only if it is
zero, and possibly a fraction and an exponent. The scanner takes a numeral off
the front of a text whole, if what follows does not go on with it
(`number?_append`). Decimal digits of natural numbers and of integers are
numerals. -/

namespace Keyset.Json
open Number (AllDigits IsDigits isDigits_toDigits head?_toDigits)

/-- The digits of a whole part. -/
def IsWhole (cs : List Char) : Prop := IsDigits cs ∧ (cs.head? = some '0' → cs = ['0'])

/-- Nothing, or a point and digits. -/
def IsFraction (cs : List Char) : Prop := cs = [] ∨ ∃ ds, cs = '.' :: ds ∧ IsDigits ds

/-- Nothing, or an `e`, possibly a sign, and digits. -/
def IsExponent (cs : List Char) : Prop :=
  cs = [] ∨ ∃ c sign ds, cs = c :: sign ++ ds ∧ (c = 'e' ∨ c = 'E') ∧
    (sign = [] ∨ sign = ['+'] ∨ sign = ['-']) ∧ IsDigits ds

/-- A numeral without its sign. -/
def IsUnsigned (cs : List Char) : Prop :=
  ∃ whole fraction exponent, cs = whole ++ fraction ++ exponent ∧
    IsWhole whole ∧ IsFraction fraction ∧ IsExponent exponent

def IsNumeral (cs : List Char) : Prop := IsUnsigned cs ∨ ∃ ds, cs = '-' :: ds ∧ IsUnsigned ds

/-- The text does not go on with a digit. -/
def NoDigit (rest : Symbols) : Prop := ∀ c cs, rest = some c :: cs → c.isDigit = false

/-- The text does not go on with what may follow inside a numeral. -/
def NoNumeral (rest : Symbols) : Prop :=
  ∀ c cs, rest = some c :: cs → c.isDigit = false ∧ c ≠ '.' ∧ c ≠ 'e' ∧ c ≠ 'E'

theorem NoNumeral.noDigit {rest : Symbols} (h : NoNumeral rest) : NoDigit rest :=
  fun c cs hr => (h c cs hr).1

theorem noDigit_cons {c : Char} {cs : Symbols} (h : c.isDigit = false) :
    NoDigit (some c :: cs) := by
  intro d ds hd
  cases hd
  exact h

/-! ## Taking parts off the front -/

theorem digits_append {ds : List Char} {rest : Symbols} (hd : AllDigits ds) (hr : NoDigit rest) :
    digits (ds.map some ++ rest) = (ds, rest) := by
  induction ds with
  | nil =>
    rcases rest with _ | ⟨_ | c, rest⟩
    · rfl
    · rfl
    · have hc : c.isDigit = false := hr c rest rfl
      simp [digits, hc]
  | cons d ds ih =>
    have hdigit : d.isDigit = true := hd d (by simp)
    simp [digits, hdigit, ih fun c hc => hd c (List.mem_cons_of_mem d hc)]

theorem digits_of_isDigits {ds : List Char} {rest : Symbols} (hd : IsDigits ds)
    (hr : NoDigit rest) :
    ∃ e es, ds = e :: es ∧ digits (ds.map some ++ rest) = (e :: es, rest) := by
  obtain ⟨hne, hall⟩ := hd
  cases ds with
  | nil => exact absurd rfl hne
  | cons e es => exact ⟨e, es, rfl, digits_append hall hr⟩

theorem fraction?_append {cs : List Char} {rest : Symbols} (hf : IsFraction cs)
    (hr : NoDigit rest) (hp : ∀ tail, rest ≠ some '.' :: tail) :
    fraction? (cs.map some ++ rest) = some (cs, rest) := by
  rcases hf with rfl | ⟨ds, rfl, hds⟩
  · rw [List.map_nil, List.nil_append]
    unfold fraction?
    split
    · rename_i tail
      exact absurd rfl (hp tail)
    · rfl
  · obtain ⟨e, es, rfl, hdigits⟩ := digits_of_isDigits hds hr
    simp only [List.map_cons, List.cons_append] at hdigits ⊢
    simp only [fraction?, hdigits]

theorem exponent?_append {cs : List Char} {rest : Symbols} (hx : IsExponent cs)
    (hr : NoNumeral rest) : exponent? (cs.map some ++ rest) = some (cs, rest) := by
  rcases hx with rfl | ⟨c, sign, ds, rfl, hc, hsign, hds⟩
  · rw [List.map_nil, List.nil_append]
    unfold exponent?
    split
    · rename_i c tail
      have hne := hr c tail rfl
      rw [if_neg fun h => h.elim hne.2.2.1 hne.2.2.2]
    · rfl
  · obtain ⟨e, es, rfl, hdigits⟩ := digits_of_isDigits hds hr.noDigit
    have hdigit : e.isDigit = true := hds.2 e (by simp)
    have hplus : e ≠ '+' := by rintro rfl; cases hdigit
    have hminus : e ≠ '-' := by rintro rfl; cases hdigit
    rcases hsign with rfl | rfl | rfl <;>
      simp only [List.map_cons, List.cons_append, List.nil_append] at hdigits ⊢ <;>
      simp [exponent?, hc, hdigits, hplus, hminus]

/-- Nothing that starts a fraction or an exponent goes on with a digit. -/
theorem noDigit_exponent {cs : List Char} {rest : Symbols} (hx : IsExponent cs)
    (hr : NoNumeral rest) :
    NoDigit (cs.map some ++ rest) ∧ ∀ tail, cs.map some ++ rest ≠ some '.' :: tail := by
  rcases hx with rfl | ⟨c, sign, ds, rfl, hc, -, -⟩
  · exact ⟨hr.noDigit, fun tail h => (hr '.' tail h).2.1 rfl⟩
  · constructor
    · exact noDigit_cons (by rcases hc with rfl | rfl <;> rfl)
    · intro tail h
      simp only [List.cons_append, List.map_cons, List.cons.injEq, Option.some.injEq] at h
      rcases hc with rfl | rfl <;> cases h.1

theorem noDigit_fraction {cs : List Char} {rest : Symbols} (hf : IsFraction cs)
    (hr : NoDigit rest) : NoDigit (cs.map some ++ rest) := by
  rcases hf with rfl | ⟨ds, rfl, -⟩
  · exact hr
  · exact noDigit_cons rfl

theorem unsigned?_append {cs : List Char} {rest : Symbols} (hu : IsUnsigned cs)
    (hr : NoNumeral rest) : unsigned? (cs.map some ++ rest) = some (cs, rest) := by
  obtain ⟨whole, fraction, exponent, rfl, ⟨hwhole, hzero⟩, hfraction, hexponent⟩ := hu
  obtain ⟨hd, hp⟩ := noDigit_exponent hexponent hr
  have hf := fraction?_append hfraction hd hp
  have hx := exponent?_append hexponent hr
  have hrest := noDigit_fraction hfraction hd
  obtain ⟨e, es, rfl, hdigits⟩ := digits_of_isDigits hwhole hrest
  simp only [List.map_append, List.append_assoc, List.map_cons, List.cons_append] at hdigits ⊢
  by_cases he : e = '0'
  · subst he
    have hes : es = [] := by simpa using hzero rfl
    subst hes
    simp [unsigned?, hf, hx]
  · unfold unsigned?
    split
    · rename_i tail h
      simp only [List.cons.injEq, Option.some.injEq] at h
      exact absurd h.1 he
    · simp [hdigits, hf, hx]

theorem IsUnsigned.exists_cons {cs : List Char} (h : IsUnsigned cs) :
    ∃ c ds, cs = c :: ds ∧ c.isDigit = true := by
  obtain ⟨whole, fraction, exponent, rfl, ⟨⟨hne, hall⟩, -⟩, -⟩ := h
  cases whole with
  | nil => exact absurd rfl hne
  | cons c ds => exact ⟨c, ds ++ fraction ++ exponent, rfl, hall c (by simp)⟩

theorem number?_append {cs : List Char} {rest : Symbols} (h : IsNumeral cs) (hr : NoNumeral rest) :
    number? (cs.map some ++ rest) = some (cs, rest) := by
  rcases h with h | ⟨ds, rfl, h⟩
  · obtain ⟨c, ds, rfl, hc⟩ := h.exists_cons
    have hu := unsigned?_append h hr
    rw [List.map_cons, List.cons_append] at hu ⊢
    unfold number?
    split
    · rename_i tail heq
      simp only [List.cons.injEq, Option.some.injEq] at heq
      rw [heq.1] at hc
      cases hc
    · exact hu
  · simp [number?, unsigned?_append h hr]

/-! ## Whole numbers -/

theorem isWhole_toDigits (n : Nat) : IsWhole (Nat.toDigits 10 n) := by
  refine ⟨isDigits_toDigits n, fun h => ?_⟩
  by_cases hn : n = 0
  · rw [hn, Nat.toDigits_zero]
  · exact absurd h (head?_toDigits hn)

theorem IsWhole.isUnsigned {cs : List Char} (h : IsWhole cs) : IsUnsigned cs :=
  ⟨cs, [], [], by simp, h, Or.inl rfl, Or.inl rfl⟩

theorem isNumeral_toDigits (n : Nat) : IsNumeral (Nat.toDigits 10 n) :=
  Or.inl (isWhole_toDigits n).isUnsigned

theorem isNumeral_neg_toDigits (n : Nat) : IsNumeral ('-' :: Nat.toDigits 10 n) :=
  Or.inr ⟨_, rfl, (isWhole_toDigits n).isUnsigned⟩

end Keyset.Json
