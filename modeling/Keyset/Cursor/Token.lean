import Keyset.Cursor.Basic
import Keyset.Json.Scan
import Keyset.Order.Fingerprint

/-!
# Cursor tokens

A token carries a cursor in a form that can be handed out: URL-safe base64 over a small JSON
document with a version, the fingerprint of the ordering and the cursor. A token is only good for
the ordering it was made for, or one of the same fingerprint.
-/
namespace Keyset
open Json Text

namespace Cursor

def tokenVersion : Nat := 1

/-- What a token holds. -/
structure Envelope where
  version : Nat
  fingerprint : String
  cursor : Cursor

namespace Envelope

def document (e : Envelope) : Document :=
  .record [("v", .ofNat e.version), ("fp", .ofString e.fingerprint), ("k", e.cursor.document)]

/-- A version is a byte. -/
def ofDocument? (d : Document) : Option Envelope := do
  match ← d.record? ["v", "fp", "k"] with
  | [v, fp, k] =>
    return ⟨← Document.field? (Document.below? 256) v, ← Document.field? Document.string? fp,
      ← Document.field? Cursor.ofDocument? k⟩
  | _ => none

/-- The token of an envelope. -/
def token (e : Envelope) : String :=
  String.ofList <| (Base64Url.encode (Utf8.encode e.document.render)).map fun b =>
    Char.ofNat b.toNat

def ofToken (token : String) : Except CursorError Envelope :=
  let bytes := Utf8.encode (trim token.toList)
  if bytes.isEmpty then .error .empty
  else if CursorError.sizeLimit < bytes.length then .error (.tooLong bytes.length)
  else match Base64Url.decode bytes with
    | .error e => .error (.encoding e)
    | .ok payload =>
      match (Document.ofBytes? payload).bind ofDocument? with
      | none => .error .payload
      | some e => if e.version = tokenVersion then .ok e else .error (.unsupportedVersion e.version)

end Envelope

/-- The token of a cursor in an ordering. -/
def token (c : Cursor) (o : SortOrder) : String :=
  (Envelope.mk tokenVersion o.fingerprintHex c).token

/-- The cursor of a token, if it fits the ordering. -/
def ofToken (token : String) (o : SortOrder) : Except CursorError Cursor := do
  let e ← Envelope.ofToken token
  if e.fingerprint ≠ o.fingerprintHex then throw .orderMismatch
  let _ ← e.cursor.fit o
  return e.cursor

end Cursor

end Keyset
