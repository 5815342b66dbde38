import Keyset.Json.Scan
import Keyset.Number.Whole
import Keyset.Page.Fetched
import Keyset.Text.Blank

/-!
# Page size settings

The default and the maximum page size of an installation, from a JSON document or from variables
of the environment. Both sizes are positive and the default is not above the maximum.
-/
namespace Keyset
open Json

structure Settings where
  defaultSize : UInt64
  maximumSize : UInt64
  deriving DecidableEq, Repr

inductive SettingsError where
  | document
  | invalidNumber (key value : String)
  | defaultExceedsMaximum (default maximum : UInt64)
  deriving DecidableEq, Repr

def SettingsError.message : SettingsError → String
  | .document => "Invalid settings document"
  | .invalidNumber key value => s!"Invalid value '{value}' for {key}: expected a positive integer"
  | .defaultExceedsMaximum default maximum =>
    s!"Invalid page sizes: default {default.toNat} exceeds maximum {maximum.toNat}"

namespace Settings

/-- The sizes that apply where none are set. -/
def standard : Settings := ⟨SizePolicy.standard.default, SizePolicy.standard.maximum⟩

def check (s : Settings) : Except SettingsError Settings :=
  if s.defaultSize = 0 then .error (.invalidNumber "default_page_size" "0")
  else if s.maximumSize = 0 then .error (.invalidNumber "maximum_page_size" "0")
  else if s.maximumSize < s.defaultSize then
    .error (.defaultExceedsMaximum s.defaultSize s.maximumSize)
  else .ok s

def policy (s : Settings) : SizePolicy := .of s.defaultSize s.maximumSize

def document (s : Settings) : Document :=
  .record [("default_page_size", .ofNat s.defaultSize.toNat),
    ("maximum_page_size", .ofNat s.maximumSize.toNat)]

/-- The sizes of a document, unchecked; a missing one is the standard one. -/
def ofDocument? (d : Document) : Option Settings := do
  let size (standard : UInt64) : Option Document → Option UInt64
    | none => some standard
    | some d => d.uint64?
  match ← d.optionalRecord? ["default_page_size", "maximum_page_size"] with
  | [default, maximum] =>
    return ⟨← size standard.defaultSize default, ← size standard.maximumSize maximum⟩
  | _ => none

def ofJson (text : String) : Except SettingsError Settings :=
  match (Document.ofText? text).bind ofDocument? with
  | some s => s.check
  | none => .error .document

/-- A size from a variable, or the standard one if the variable is not set. -/
def sizeVariable (lookup : String → Option String) (key : String) (standard : UInt64) :
    Except SettingsError UInt64 :=
  match lookup key with
  | none => .ok standard
  | some raw =>
    match (Number.uint64? (Text.trim raw.toList)).filter (0 < ·) with
    | some n => .ok n
    | none => .error (.invalidNumber key raw)

/-- The settings of an environment. -/
def ofEnvironment (lookup : String → Option String) : Except SettingsError Settings := do
  let default ← sizeVariable lookup "KEYSET_DEFAULT_PAGE_SIZE" standard.defaultSize
  let maximum ← sizeVariable lookup "KEYSET_MAXIMUM_PAGE_SIZE" standard.maximumSize
  check ⟨default, maximum⟩

end Settings

end Keyset
