import Keyset.Proofs.Json.Read
import Keyset.Settings
import Mathlib.Data.UInt

/-! # Settings from either source

A size is found in a document as the content of the member of its name, and in
the environment as the text of its variable (`Gives`). Where nothing is found
both sources take the standard size. A zero is refused by the environment as it
is read and by the document in the end, so the errors differ, but what is
accepted is the same (`sources_agree`): positive sizes of which the default is
not above the maximum. These are the sizes of the policy as they stand
(`policy_of_valid`). -/

namespace Keyset
open Json

/-! ## Sizes that are given -/

namespace Settings

/-- What is found for a size: one thing, which is read as the size, or nothing if none is given. -/
def Gives {α : Type} (read : α → Option UInt64) (found : List α) (size : Option UInt64) : Prop :=
  found.map read = size.toList.map some

instance {α : Type} (read : α → Option UInt64) (found : List α) (size : Option UInt64) :
    Decidable (Gives read found size) :=
  inferInstanceAs (Decidable (found.map read = size.toList.map some))

theorem Gives.cases {α : Type} {read : α → Option UInt64} {found : List α} {size : Option UInt64}
    (h : Gives read found size) :
    (found = [] ∧ size = none) ∨ ∃ a n, found = [a] ∧ read a = some n ∧ size = some n := by
  cases size with
  | none => exact .inl ⟨List.map_eq_nil_iff.mp h, rfl⟩
  | some n =>
    obtain ⟨a, rfl, hread⟩ := List.map_eq_singleton_iff.mp h
    exact .inr ⟨a, n, rfl, hread, rfl⟩

theorem Gives.length_le {α : Type} {read : α → Option UInt64} {found : List α}
    {size : Option UInt64} (h : Gives read found size) : found.length ≤ 1 := by
  rcases h.cases with ⟨rfl, -⟩ | ⟨a, n, rfl, -, -⟩
  · exact Nat.zero_le 1
  · exact Nat.le_refl 1

/-- Where nothing is given the standard size is taken. -/
theorem Gives.head?_elim {α : Type} {read : α → Option UInt64} {found : List α}
    {size : Option UInt64} (h : Gives read found size) (standard : UInt64) :
    found.head?.elim (some standard) read = some (size.getD standard) := by
  rcases h.cases with ⟨rfl, rfl⟩ | ⟨a, n, rfl, hread, rfl⟩
  · rfl
  · exact hread

/-- The size that the text of a variable is read as. -/
def sizeText? (raw : String) : Option UInt64 := Number.uint64? (Text.trim raw.toList)

variable {default maximum : Option UInt64} {members : List (String × Document)}
  {lookup : String → Option String}

theorem ofDocument?_record
    (hdefault : Gives Document.uint64? (Document.contents members "default_page_size") default)
    (hmaximum : Gives Document.uint64? (Document.contents members "maximum_page_size") maximum) :
    ofDocument? (.record members) = some ⟨default.getD 20, maximum.getD 100⟩ := by
  have honce : ∀ name ∈ ["default_page_size", "maximum_page_size"],
      (Document.contents members name).length ≤ 1 := by
    intro name hname
    simp only [List.mem_cons, List.not_mem_nil, or_false] at hname
    rcases hname with rfl | rfl
    · exact hdefault.length_le
    · exact hmaximum.length_le
  have hread (d m : Option Document) (hfields : (Document.record members).optionalRecord?
      ["default_page_size", "maximum_page_size"] = some [d, m]) :
      ofDocument? (.record members) = (do
        return ⟨← d.elim (some 20) Document.uint64?, ← m.elim (some 100) Document.uint64?⟩) := by
    rw [ofDocument?, hfields]
    cases d <;> cases m <;> rfl
  rw [hread _ _ (Document.optionalRecord?_record honce), hdefault.head?_elim, hmaximum.head?_elim]
  rfl

/-- A variable is refused for a zero. -/
theorem sizeVariable_zero {key : String} (h : Gives sizeText? (lookup key).toList (some 0))
    (standard : UInt64) : ∃ e, sizeVariable lookup key standard = .error e := by
  rcases h.cases with ⟨-, hsize⟩ | ⟨raw, n, hfound, hread, hn⟩
  · cases hsize
  · have hset : lookup key = some raw := Option.toList_eq_singleton_iff.mp hfound
    rw [← Option.some.inj hn, sizeText?] at hread
    refine ⟨.invalidNumber key raw, ?_⟩
    rw [sizeVariable, hset]
    simp only [hread]
    rfl

/-- Any other variable gives its size, or the standard one if it is not set. -/
theorem sizeVariable_of_ne_zero {key : String} {size : Option UInt64}
    (h : Gives sizeText? (lookup key).toList size) (hzero : size ≠ some 0) (standard : UInt64) :
    sizeVariable lookup key standard = .ok (size.getD standard) := by
  rcases h.cases with ⟨hfound, rfl⟩ | ⟨raw, n, hfound, hread, rfl⟩
  · have hunset : lookup key = none := Option.toList_eq_nil_iff.mp hfound
    rw [sizeVariable, hunset]
    rfl
  · have hset : lookup key = some raw := Option.toList_eq_singleton_iff.mp hfound
    have hpos : 0 < n := UInt64.pos_iff_ne_zero.mpr fun hn => hzero (congrArg some hn)
    rw [sizeText?] at hread
    rw [sizeVariable, hset]
    simp only [hread, Option.filter_some, decide_eq_true hpos, if_true]
    rfl

/-! ## What is accepted -/

theorem check_eq_ok_iff {s t : Settings} :
    s.check = .ok t ↔ t = s ∧ 1 ≤ s.defaultSize ∧ s.defaultSize ≤ s.maximumSize := by
  unfold check
  simp only [UInt64.le_iff_toNat_le, UInt64.lt_iff_toNat_lt, ← UInt64.toNat_inj, UInt64.toNat_zero,
    UInt64.toNat_one]
  split
  · simp; omega
  · split
    · simp; omega
    · split
      · simp; omega
      · simp [eq_comm]; omega

/-- The sizes of valid settings are taken for the policy as they are. -/
theorem policy_of_valid {s : Settings} (hdefault : 1 ≤ s.defaultSize)
    (hmaximum : s.defaultSize ≤ s.maximumSize) : s.policy = ⟨s.defaultSize, s.maximumSize⟩ := by
  rw [UInt64.le_iff_toNat_le] at hdefault hmaximum
  have hone : (1 : UInt64).toNat = 1 := rfl
  have htop : max s.maximumSize 1 = s.maximumSize := by
    rw [← UInt64.toNat_inj, UInt64.toNat_max]
    omega
  have hsize : min (max s.defaultSize 1) s.maximumSize = s.defaultSize := by
    rw [← UInt64.toNat_inj, UInt64.toNat_min, UInt64.toNat_max]
    omega
  rw [policy, SizePolicy.of, htop, hsize]

theorem ofJson_eq_ok_iff {text : String} {s : Settings}
    (hdocument : Document.ofText? text = some (.record members))
    (hdefault : Gives Document.uint64? (Document.contents members "default_page_size") default)
    (hmaximum : Gives Document.uint64? (Document.contents members "maximum_page_size") maximum) :
    ofJson text = .ok s ↔ s = ⟨default.getD 20, maximum.getD 100⟩ ∧
      1 ≤ default.getD 20 ∧ default.getD 20 ≤ maximum.getD 100 := by
  rw [ofJson, hdocument, Option.bind_some, ofDocument?_record hdefault hmaximum]
  exact check_eq_ok_iff

theorem ofEnvironment_eq_ok_iff {s : Settings}
    (hdefault : Gives sizeText? (lookup "KEYSET_DEFAULT_PAGE_SIZE").toList default)
    (hmaximum : Gives sizeText? (lookup "KEYSET_MAXIMUM_PAGE_SIZE").toList maximum) :
    ofEnvironment lookup = .ok s ↔ s = ⟨default.getD 20, maximum.getD 100⟩ ∧
      1 ≤ default.getD 20 ∧ default.getD 20 ≤ maximum.getD 100 := by
  have hone : (1 : UInt64).toNat = 1 := rfl
  have hzero : (0 : UInt64).toNat = 0 := rfl
  by_cases hd : default = some 0
  · subst hd
    obtain ⟨e, he⟩ := sizeVariable_zero hdefault standard.defaultSize
    refine iff_of_false (by rw [ofEnvironment, he]; exact nofun) ?_
    rintro ⟨-, hpos, -⟩
    rw [Option.getD_some, UInt64.le_iff_toNat_le] at hpos
    omega
  · have hfirst := sizeVariable_of_ne_zero hdefault hd standard.defaultSize
    by_cases hm : maximum = some 0
    · subst hm
      obtain ⟨e, he⟩ := sizeVariable_zero hmaximum standard.maximumSize
      refine iff_of_false (by rw [ofEnvironment, hfirst, he]; exact nofun) ?_
      rintro ⟨-, hpos, hle⟩
      rw [Option.getD_some, UInt64.le_iff_toNat_le] at hle
      rw [UInt64.le_iff_toNat_le] at hpos
      omega
    · have hsecond := sizeVariable_of_ne_zero hmaximum hm standard.maximumSize
      rw [ofEnvironment, hfirst, hsecond]
      exact check_eq_ok_iff

/-- What is accepted alike is accepted as the same, and refused alike. -/
theorem toOption_congr {a b : Except SettingsError Settings}
    (h : ∀ s, a = .ok s ↔ b = .ok s) : a.toOption = b.toOption := by
  cases a with
  | ok s => rw [(h s).mp rfl]
  | error e =>
    cases b with
    | ok s => cases (h s).mpr rfl
    | error e' => rfl

/-- **Both sources are one.** Let a default and a maximum size be given, or one of them, or neither:
once each in a document, by name and among any other members, and as texts of variables that are
read as these sizes. Either both sources are refused or both give the same settings. They are
accepted exactly if the default is positive and not above the maximum, where twenty and a hundred
stand for what is not given, and then the settings and their policy have just these sizes. -/
theorem sources_agree (text : String) (members : List (String × Document))
    (lookup : String → Option String) (default maximum : Option UInt64)
    (document : Document.ofText? text = some (.record members))
    (member_default :
      Gives Document.uint64? (Document.contents members "default_page_size") default)
    (member_maximum :
      Gives Document.uint64? (Document.contents members "maximum_page_size") maximum)
    (variable_default : Gives sizeText? (lookup "KEYSET_DEFAULT_PAGE_SIZE").toList default)
    (variable_maximum : Gives sizeText? (lookup "KEYSET_MAXIMUM_PAGE_SIZE").toList maximum) :
    (ofJson text).toOption = (ofEnvironment lookup).toOption ∧
    (∀ s, ofJson text = .ok s ↔ s = ⟨default.getD 20, maximum.getD 100⟩ ∧
      1 ≤ default.getD 20 ∧ default.getD 20 ≤ maximum.getD 100) ∧
    ∀ s, ofJson text = .ok s → s.policy = ⟨default.getD 20, maximum.getD 100⟩ := by
  have hjson (s : Settings) := ofJson_eq_ok_iff (s := s) document member_default member_maximum
  have henvironment (s : Settings) :=
    ofEnvironment_eq_ok_iff (s := s) variable_default variable_maximum
  refine ⟨toOption_congr fun s => (hjson s).trans (henvironment s).symm, hjson, fun s hs => ?_⟩
  obtain ⟨rfl, hpos, hle⟩ := (hjson s).mp hs
  exact policy_of_valid hpos hle

/-- A default of fifty, beside a member that is none of the settings' and with blanks and zeros
around it, goes with the standard maximum. -/
theorem sources_agree_fifty :
    ofJson "\x7b\"theme\":\"dark\",\"default_page_size\":50\x7d" = .ok ⟨50, 100⟩ ∧
    (ofEnvironment fun key =>
      if key = "KEYSET_DEFAULT_PAGE_SIZE" then some "\t+050 " else none).toOption =
        some ⟨50, 100⟩ ∧
    Settings.policy ⟨50, 100⟩ = ⟨50, 100⟩ := by
  have hspelled : (Document.record
      [("theme", .ofString "dark"), ("default_page_size", .ofNat 50)]).Spelled := by
    refine Document.spelled_record (List.forall_mem_cons.mpr ⟨Document.spelled_ofString _, ?_⟩)
    exact List.forall_mem_singleton.mpr (Document.spelled_ofNat 50)
  have htext : (Document.record
      [("theme", .ofString "dark"), ("default_page_size", .ofNat 50)]).text =
        "\x7b\"theme\":\"dark\",\"default_page_size\":50\x7d" := by
    decide
  have hdocument := Document.ofText?_text hspelled
  rw [htext] at hdocument
  obtain ⟨hsame, haccepted, hpolicy⟩ := sources_agree _ _
    (fun key => if key = "KEYSET_DEFAULT_PAGE_SIZE" then some "\t+050 " else none)
    (some 50) none hdocument (by decide) (by decide) (by decide) (by decide)
  have hjson := (haccepted ⟨50, 100⟩).mpr ⟨rfl, by decide, by decide⟩
  refine ⟨hjson, ?_, hpolicy _ hjson⟩
  rw [← hsame, hjson]
  rfl

end Settings

end Keyset
