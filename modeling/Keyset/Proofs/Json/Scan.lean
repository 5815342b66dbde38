import Keyset.Proofs.Json.Numeral
import Keyset.Proofs.Text.Utf8

/-! # JSON text reads back

The scanner takes a rendered document off the front of a text, whatever follows
(`value?_render`). A string takes one step for each character, since an escape
stands for one (`units?_escape`); arrays and objects go through their items, and
fuel twice the length of the text suffices for all of them. The numbers of the
document have to be spelled as JSON spells numbers. -/

namespace Keyset.Json

-- these are unfolded throughout, and their equations take long to make
attribute [local simp] units? chars? value? Document.render

/-! ## Strings -/

/-- The unit that a character is read as. -/
def unit (c : Char) : Unit16 :=
  if c = '"' ∨ c = '\\' ∨ c = '\x08' ∨ c = '\t' ∨ c = '\n' ∨ c = '\x0c' ∨ c = '\r' then .char c
  else if c.toNat < 32 then .code c.toNat
  else .char c

theorem ofNat_hex {n : Nat} (h : n < 32) : Number.ofHex? (Number.hex 4 n) = some n := by
  rw [Number.ofHex?_hex, Nat.mod_eq_of_lt]
  exact Nat.lt_of_lt_of_le h (by decide)

theorem units?_escape (c : Char) (rest : Symbols) :
    units? ((escape c).map some ++ rest) =
      (units? rest).map fun (us, rest) => (unit c :: us, rest) := by
  unfold escape unit
  by_cases h1 : c = '"'
  · subst h1; simp [escaped?]
  by_cases h2 : c = '\\'
  · subst h2; simp [escaped?]
  by_cases h3 : c = '\x08'
  · subst h3; simp [escaped?]
  by_cases h4 : c = '\t'
  · subst h4; simp [escaped?]
  by_cases h5 : c = '\n'
  · subst h5; simp [escaped?]
  by_cases h6 : c = '\x0c'
  · subst h6; simp [escaped?]
  by_cases h7 : c = '\r'
  · subst h7; simp [escaped?]
  by_cases h8 : c.toNat < 32
  · have hhex := ofNat_hex h8
    simp only [Number.hex, List.nil_append, List.cons_append] at hhex
    simp [h1, h2, h3, h4, h5, h6, h7, h8, Number.hex, hhex]
  · simp [h1, h2, h3, h4, h5, h6, h7, h8]

theorem units?_flatMap_escape (cs : List Char) (rest : Symbols) :
    units? ((cs.flatMap escape).map some ++ some '"' :: rest) = some (cs.map unit, rest) := by
  induction cs with
  | nil => simp
  | cons c cs ih =>
    rw [List.flatMap_cons, List.map_append, List.append_assoc, units?_escape, ih]
    rfl

/-- No unit of a text is half of a pair. -/
theorem chars?_cons_unit (c : Char) (us : List Unit16) :
    chars? (unit c :: us) = (chars? us).map (c :: ·) := by
  unfold unit
  by_cases hspecial :
      c = '"' ∨ c = '\\' ∨ c = '\x08' ∨ c = '\t' ∨ c = '\n' ∨ c = '\x0c' ∨ c = '\r'
  · rw [if_pos hspecial]
    simp
  · rw [if_neg hspecial]
    by_cases hcontrol : c.toNat < 32
    · rw [if_pos hcontrol]
      have hhigh : isHighSurrogate c.toNat = false := by
        simp only [isHighSurrogate, Bool.and_eq_false_iff, decide_eq_false_iff_not]
        omega
      have hlow : isLowSurrogate c.toNat = false := by
        simp only [isLowSurrogate, Bool.and_eq_false_iff, decide_eq_false_iff_not]
        omega
      rcases us with _ | ⟨_ | _ | _, us⟩ <;> simp [hhigh, hlow, Char.ofNat_toNat]
    · rw [if_neg hcontrol]
      simp

theorem chars?_map_unit (cs : List Char) : chars? (cs.map unit) = some cs := by
  induction cs with
  | nil => rfl
  | cons c cs ih => rw [List.map_cons, chars?_cons_unit, ih]; rfl

/-- A rendered string without its opening quote. -/
theorem string?_render (s : Option String) (rest : Symbols) :
    ∃ cs, renderString s = '"' :: cs ∧ string? (cs.map some ++ rest) = some (s, rest) := by
  cases s with
  | none =>
    -- a lone surrogate is read as no text
    refine ⟨['\\', 'u', 'd', '8', '0', '0', '"'], rfl, ?_⟩
    have hhex : Number.ofHex? ['d', '8', '0', '0'] = some 0xD800 := rfl
    simp [string?, hhex, isHighSurrogate]
  | some s =>
    refine ⟨s.toList.flatMap escape ++ ['"'], rfl, ?_⟩
    rw [string?, List.map_append, List.append_assoc]
    simp only [List.map_cons, List.map_nil, List.cons_append, List.nil_append]
    rw [units?_flatMap_escape]
    simp [chars?_map_unit]

/-! ## Documents -/

mutual

/-- All numbers are spelled as JSON spells them. -/
def Document.Spelled : Document → Prop
  | .number spelling => IsNumeral spelling
  | .array items => SpelledItems items
  | .object members => SpelledMembers members
  | .null | .bool _ | .string _ => True

def SpelledItems : List Document → Prop
  | [] => True
  | d :: ds => d.Spelled ∧ SpelledItems ds

def SpelledMembers : List (Option String × Document) → Prop
  | [] => True
  | (_, d) :: ms => d.Spelled ∧ SpelledMembers ms

end

/-- The characters that a document starts with. -/
def Opens (c : Char) : Prop :=
  c = 'n' ∨ c = 't' ∨ c = 'f' ∨ c = '"' ∨ c = '[' ∨ c = '\x7b' ∨ c = '-' ∨ c.isDigit = true

theorem Document.render_opens {d : Document} (h : d.Spelled) :
    ∃ c cs, d.render = c :: cs ∧ Opens c := by
  cases d with
  | null => exact ⟨'n', "ull".toList, by rw [render]; rfl, by simp [Opens]⟩
  | bool b =>
    cases b with
    | false => exact ⟨'f', "alse".toList, by rw [render]; rfl, by simp [Opens]⟩
    | true => exact ⟨'t', "rue".toList, by rw [render]; rfl, by simp [Opens]⟩
  | number spelling =>
    rw [Spelled] at h
    rw [render]
    rcases h with h | ⟨ds, rfl, -⟩
    · obtain ⟨c, ds, rfl, hc⟩ := h.exists_cons
      exact ⟨c, ds, rfl, by simp [Opens, hc]⟩
    · exact ⟨_, _, rfl, by simp [Opens]⟩
  | string s =>
    obtain ⟨cs, hcs, -⟩ := string?_render s []
    exact ⟨_, cs, by rw [render, hcs], by simp [Opens]⟩
  | array items => exact ⟨_, _, by rw [render]; rfl, by simp [Opens]⟩
  | object members => exact ⟨_, _, by rw [render]; rfl, by simp [Opens]⟩

theorem renderItems_cons_cons (d e : Document) (es : List Document) :
    renderItems (d :: e :: es) = d.render ++ ',' :: renderItems (e :: es) := by
  rw [renderItems]
  simp

theorem renderMembers_cons_cons (name : Option String) (d : Document)
    (m : Option String × Document) (ms : List (Option String × Document)) :
    renderMembers ((name, d) :: m :: ms) =
      renderString name ++ ':' :: d.render ++ ',' :: renderMembers (m :: ms) := by
  rw [renderMembers]
  simp

theorem renderItems_opens {d : Document} {ds : List Document} (h : SpelledItems (d :: ds)) :
    ∃ c cs, renderItems (d :: ds) = c :: cs ∧ Opens c := by
  rw [SpelledItems] at h
  obtain ⟨c, cs, hcs, hc⟩ := d.render_opens h.1
  cases ds with
  | nil => exact ⟨c, cs, by rw [renderItems, hcs], hc⟩
  | cons e es => exact ⟨c, _, by rw [renderItems_cons_cons, hcs, List.cons_append], hc⟩

theorem renderMembers_quote (name : Option String) (d : Document)
    (ms : List (Option String × Document)) :
    ∃ cs, renderMembers ((name, d) :: ms) = '"' :: cs := by
  obtain ⟨cs, hcs, -⟩ := string?_render name []
  cases ms with
  | nil => exact ⟨_, by rw [renderMembers, hcs, List.cons_append]⟩
  | cons m ms => exact ⟨_, by rw [renderMembers_cons_cons, hcs]; rfl⟩

theorem skipBlanks_cons {c : Char} (rest : Symbols)
    (h : c ≠ ' ' ∧ c ≠ '\n' ∧ c ≠ '\t' ∧ c ≠ '\r') :
    skipBlanks (some c :: rest) = some c :: rest := by
  simp [skipBlanks, h.1, h.2.1, h.2.2.1, h.2.2.2]

theorem Opens.skipBlanks {c : Char} (h : Opens c) (rest : Symbols) :
    skipBlanks (some c :: rest) = some c :: rest := by
  refine skipBlanks_cons rest ⟨?_, ?_, ?_, ?_⟩ <;> rintro rfl <;> simp [Opens] at h

theorem word?_append (w : String) (rest : Symbols) :
    word? w (w.toList.map some ++ rest) = some rest := by
  simp [word?]

theorem noNumeral_cons {c : Char} (rest : Symbols)
    (h : c.isDigit = false ∧ c ≠ '.' ∧ c ≠ 'e' ∧ c ≠ 'E') : NoNumeral (some c :: rest) := by
  intro d ds hd
  cases hd
  exact h

/-! ### One value, given what is inside of it -/

theorem value?_null (fuel : Nat) (rest : Symbols) :
    value? (fuel + 1) (Document.null.render.map some ++ rest) = some (.null, rest) := by
  have hskip := skipBlanks_cons (c := 'n') ("ull".toList.map some ++ rest) (by decide)
  rw [Document.render]
  show value? (fuel + 1) (some 'n' :: ("ull".toList.map some ++ rest)) = _
  simp only [value?, hskip, word?_append, Option.map_some]

theorem value?_bool (b : Bool) (fuel : Nat) (rest : Symbols) :
    value? (fuel + 1) ((Document.bool b).render.map some ++ rest) = some (.bool b, rest) := by
  rw [Document.render]
  cases b with
  | true =>
    have hskip := skipBlanks_cons (c := 't') ("rue".toList.map some ++ rest) (by decide)
    show value? (fuel + 1) (some 't' :: ("rue".toList.map some ++ rest)) = _
    simp only [value?, hskip, word?_append, Option.map_some]
  | false =>
    have hskip := skipBlanks_cons (c := 'f') ("alse".toList.map some ++ rest) (by decide)
    show value? (fuel + 1) (some 'f' :: ("alse".toList.map some ++ rest)) = _
    simp only [value?, hskip, word?_append, Option.map_some]

/-- No other kind of value starts with a minus or a digit. -/
theorem value?_number {spelling : List Char} {rest : Symbols} (fuel : Nat) (h : IsNumeral spelling)
    (hr : NoNumeral rest) :
    value? (fuel + 1) (spelling.map some ++ rest) = some (.number spelling, rest) := by
  have hnumber := number?_append h hr
  obtain ⟨c, cs, rfl, hc⟩ : ∃ c cs, spelling = c :: cs ∧ (c = '-' ∨ c.isDigit = true) := by
    rcases h with h | ⟨ds, rfl, -⟩
    · obtain ⟨c, ds, rfl, hc⟩ := h.exists_cons
      exact ⟨c, ds, rfl, Or.inr hc⟩
    · exact ⟨_, _, rfl, Or.inl rfl⟩
  have hopens : Opens c := by rcases hc with rfl | hc <;> simp [Opens, *]
  have hother : c ≠ '\x7b' ∧ c ≠ '[' ∧ c ≠ '"' ∧ c ≠ 'n' ∧ c ≠ 't' ∧ c ≠ 'f' := by
    refine ⟨?_, ?_, ?_, ?_, ?_, ?_⟩ <;> rintro rfl <;> simp at hc
  rw [List.map_cons, List.cons_append] at hnumber ⊢
  simp [hopens.skipBlanks, hother, hnumber]

theorem value?_string (s : Option String) (fuel : Nat) (rest : Symbols) :
    value? (fuel + 1) ((Document.string s).render.map some ++ rest) = some (.string s, rest) := by
  obtain ⟨cs, hcs, hstring⟩ := string?_render s rest
  have hskip := skipBlanks_cons (c := '"') (cs.map some ++ rest) (by decide)
  rw [Document.render, hcs, List.map_cons, List.cons_append]
  simp only [value?, hskip, hstring, Option.map_some]

theorem value?_array_nil (fuel : Nat) (rest : Symbols) :
    value? (fuel + 1) ((Document.array []).render.map some ++ rest) = some (.array [], rest) := by
  have hskip := skipBlanks_cons (c := '[') (some ']' :: rest) (by decide)
  have hclose := skipBlanks_cons (c := ']') rest (by decide)
  rw [Document.render]
  show value? (fuel + 1) (some '[' :: some ']' :: rest) = _
  simp only [value?, hskip, hclose]

theorem value?_array_cons {d : Document} {ds : List Document} {fuel : Nat} {rest : Symbols}
    (h : SpelledItems (d :: ds))
    (hitems : items? fuel ((renderItems (d :: ds)).map some ++ some ']' :: rest) =
      some (d :: ds, rest)) :
    value? (fuel + 1) ((Document.array (d :: ds)).render.map some ++ rest) =
      some (.array (d :: ds), rest) := by
  obtain ⟨c, cs, hcs, hc⟩ := renderItems_opens h
  have hskip := fun cs => skipBlanks_cons (c := '[') cs (by decide)
  have hne : c ≠ ']' := by rintro rfl; simp [Opens] at hc
  rw [Document.render]
  rw [hcs] at hitems ⊢
  simp only [List.map_cons, List.map_append, List.map_nil, List.cons_append, List.append_assoc,
    List.nil_append] at hitems ⊢
  simp [hskip, hc.skipBlanks, hne, hitems]

theorem value?_object_nil (fuel : Nat) (rest : Symbols) :
    value? (fuel + 1) ((Document.object []).render.map some ++ rest) = some (.object [], rest) := by
  have hskip := skipBlanks_cons (c := '\x7b') (some '\x7d' :: rest) (by decide)
  have hclose := skipBlanks_cons (c := '\x7d') rest (by decide)
  rw [Document.render]
  show value? (fuel + 1) (some '\x7b' :: some '\x7d' :: rest) = _
  simp only [value?, hskip, hclose]

theorem value?_object_cons {name : Option String} {d : Document}
    {ms : List (Option String × Document)} {fuel : Nat} {rest : Symbols}
    (hmembers : members? fuel ((renderMembers ((name, d) :: ms)).map some ++ some '\x7d' :: rest) =
      some ((name, d) :: ms, rest)) :
    value? (fuel + 1) ((Document.object ((name, d) :: ms)).render.map some ++ rest) =
      some (.object ((name, d) :: ms), rest) := by
  obtain ⟨cs, hcs⟩ := renderMembers_quote name d ms
  have hskip := fun cs => skipBlanks_cons (c := '\x7b') cs (by decide)
  have hquote := fun cs => skipBlanks_cons (c := '"') cs (by decide)
  rw [Document.render]
  rw [hcs] at hmembers ⊢
  simp only [List.map_cons, List.map_append, List.map_nil, List.cons_append, List.append_assoc,
    List.nil_append] at hmembers ⊢
  simp [hskip, hquote, hmembers]

/-- Behind a member the object ends or goes on. -/
theorem members?_member (name : Option String) {d : Document} {fuel : Nat} {next : Symbols}
    (hvalue : value? fuel (d.render.map some ++ next) = some (d, next)) (rest : Symbols) :
    (skipBlanks next = some '\x7d' :: rest →
      members? (fuel + 1) ((renderString name).map some ++ some ':' ::
        (d.render.map some ++ next)) = some ([(name, d)], rest)) ∧
    (skipBlanks next = some ',' :: rest →
      members? (fuel + 1) ((renderString name).map some ++ some ':' ::
        (d.render.map some ++ next)) =
          (members? fuel rest).map fun (ms, rest) => ((name, d) :: ms, rest)) := by
  obtain ⟨cs, hcs, hstring⟩ := string?_render name (some ':' :: (d.render.map some ++ next))
  have hquote := skipBlanks_cons (c := '"')
    (cs.map some ++ some ':' :: (d.render.map some ++ next)) (by decide)
  have hcolon := skipBlanks_cons (c := ':') (d.render.map some ++ next) (by decide)
  rw [hcs, List.map_cons, List.cons_append]
  constructor
  · intro hnext
    simp only [members?, hquote, hstring, hcolon, hvalue, hnext]
  · intro hnext
    simp only [members?, hquote, hstring, hcolon, hvalue, hnext]

/-! ### Values, items and members -/

mutual

/-- The induction is on the document; the fuel lasts since a step takes a character. -/
theorem value?_render : ∀ (d : Document) (fuel : Nat) (rest : Symbols), d.Spelled →
    2 * d.render.length ≤ fuel → NoNumeral rest →
    value? fuel (d.render.map some ++ rest) = some (d, rest)
  | d, 0, rest, h, hf, _ => by
    obtain ⟨c, cs, hcs, -⟩ := d.render_opens h
    rw [hcs, List.length_cons] at hf
    omega
  | .null, fuel + 1, rest, _, _, _ => value?_null fuel rest
  | .bool b, fuel + 1, rest, _, _, _ => value?_bool b fuel rest
  | .number spelling, fuel + 1, rest, h, _, hr => by
    rw [Document.Spelled] at h
    rw [Document.render]
    exact value?_number fuel h hr
  | .string s, fuel + 1, rest, _, _, _ => value?_string s fuel rest
  | .array [], fuel + 1, rest, _, _, _ => value?_array_nil fuel rest
  | .array (d :: ds), fuel + 1, rest, h, hf, _ => by
    rw [Document.Spelled] at h
    rw [Document.render, List.length_append, List.length_cons] at hf
    exact value?_array_cons h (items?_render d ds fuel rest h (by omega))
  | .object [], fuel + 1, rest, _, _, _ => value?_object_nil fuel rest
  | .object ((name, d) :: ms), fuel + 1, rest, h, hf, _ => by
    rw [Document.Spelled] at h
    rw [Document.render, List.length_append, List.length_cons] at hf
    exact value?_object_cons (members?_render name d ms fuel rest h (by omega))

theorem items?_render : ∀ (d : Document) (ds : List Document) (fuel : Nat) (rest : Symbols),
    SpelledItems (d :: ds) → 2 * (renderItems (d :: ds)).length + 1 ≤ fuel →
    items? fuel ((renderItems (d :: ds)).map some ++ some ']' :: rest) = some (d :: ds, rest)
  | _, _, 0, _, _, hf => by omega
  | d, [], fuel + 1, rest, h, hf => by
    rw [SpelledItems] at h
    rw [renderItems] at hf ⊢
    have hvalue := value?_render d fuel (some ']' :: rest) h.1 (by omega)
      (noNumeral_cons rest (by decide))
    have hclose := skipBlanks_cons (c := ']') rest (by decide)
    simp only [items?, hvalue, hclose]
  | d, e :: es, fuel + 1, rest, h, hf => by
    rw [SpelledItems] at h
    rw [renderItems_cons_cons] at hf ⊢
    simp only [List.length_append, List.length_cons] at hf
    simp only [List.map_cons, List.map_append, List.cons_append, List.append_assoc]
    have hvalue := value?_render d fuel
      (some ',' :: ((renderItems (e :: es)).map some ++ some ']' :: rest)) h.1 (by omega)
      (noNumeral_cons _ (by decide))
    have hitems := items?_render e es fuel rest h.2 (by omega)
    have hcomma := skipBlanks_cons (c := ',')
      ((renderItems (e :: es)).map some ++ some ']' :: rest) (by decide)
    simp only [items?, hvalue, hcomma, hitems, Option.map_some]

theorem members?_render : ∀ (name : Option String) (d : Document)
    (ms : List (Option String × Document)) (fuel : Nat) (rest : Symbols),
    SpelledMembers ((name, d) :: ms) → 2 * (renderMembers ((name, d) :: ms)).length + 1 ≤ fuel →
    members? fuel ((renderMembers ((name, d) :: ms)).map some ++ some '\x7d' :: rest) =
      some ((name, d) :: ms, rest)
  | _, _, _, 0, _, _, hf => by omega
  | name, d, [], fuel + 1, rest, h, hf => by
    rw [SpelledMembers] at h
    rw [renderMembers] at hf ⊢
    simp only [List.length_append, List.length_cons] at hf
    have hvalue := value?_render d fuel (some '\x7d' :: rest) h.1 (by omega)
      (noNumeral_cons rest (by decide))
    have hclose := skipBlanks_cons (c := '\x7d') rest (by decide)
    simp only [List.map_cons, List.map_append, List.cons_append, List.append_assoc]
    exact (members?_member name hvalue rest).1 hclose
  | name, d, (other, e) :: ms, fuel + 1, rest, h, hf => by
    rw [SpelledMembers] at h
    rw [renderMembers_cons_cons] at hf ⊢
    simp only [List.length_append, List.length_cons] at hf
    have hvalue := value?_render d fuel
      (some ',' :: ((renderMembers ((other, e) :: ms)).map some ++ some '\x7d' :: rest)) h.1
      (by omega) (noNumeral_cons _ (by decide))
    have hmembers := members?_render other e ms fuel rest h.2 (by omega)
    have hcomma := skipBlanks_cons (c := ',')
      ((renderMembers ((other, e) :: ms)).map some ++ some '\x7d' :: rest) (by decide)
    simp only [List.map_cons, List.map_append, List.cons_append, List.append_assoc]
    rw [(members?_member name hvalue _).2 hcomma, hmembers, Option.map_some]

end

/-- A document comes back from its text. -/
theorem document?_render {d : Document} (h : d.Spelled) :
    document? (d.render.map some) = some d := by
  have hvalue := value?_render d (2 * (d.render.map some).length + 1) [] h
    (by rw [List.length_map]; omega) (by intro c cs hc; cases hc)
  rw [List.append_nil] at hvalue
  rw [document?, hvalue]
  rfl

theorem Document.ofBytes?_encode {d : Document} (h : d.Spelled) :
    Document.ofBytes? (Text.Utf8.encode d.render) = some d := by
  rw [ofBytes?, Text.Utf8.decode_encode, document?_render h]

end Keyset.Json
