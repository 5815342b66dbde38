import Keyset.Condition.Seek

/-!
# Requests to a source

What a reader asks of a source of rows, and what a source answers.
-/
namespace Keyset

structure Request where
  order : SortOrder
  /-- Only rows that satisfy the condition, if there is one. -/
  condition : Option Condition
  /-- At most this many rows. -/
  limit : UInt64

/-- Why a source has no rows to answer with. -/
inductive SourceError where
  | unreadable
  | malformed
  | noHeader (entity : String)
  | refused (text : String)
  deriving DecidableEq, Repr

def SourceError.message : SourceError → String
  | .unreadable => "I/O error"
  | .malformed => "CSV parsing error"
  | .noHeader entity => s!"Invalid file format: '{entity}' has no header row"
  | .refused text => s!"Query execution failed: {text}"

abbrev Answer := Except SourceError (List Row)

/-- A source answers requests, and answering may change its state. -/
abbrev Source (σ : Type) := σ → Request → Answer × σ

end Keyset
