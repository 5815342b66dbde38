import Keyset.Cli.Run

/-!
# The program

Arguments, environment and files come in, lines and an exit status go out. Log lines go to the
error stream, so that the output stays readable by machines.
-/
open Keyset Keyset.Cli

/-- The bytes behind an open path. A directory can be opened, but not read. -/
def readEntry (handle : IO.FS.Handle) : IO Entry := do
  try
    let bytes ← handle.readBinToEnd
    return .file bytes.toList
  catch _ => return .directory

/-- What a path leads to now. -/
def entryAt (path : String) : IO Entry := do
  try
    let handle ← IO.FS.Handle.mk path .read
    readEntry handle
  catch _ => return .absent

/-- The paths that options name. -/
def pathsOf (o : Options) : List String :=
  o.settings.toList ++
    match o.command with
    | .page file .. | .scan file .. => [file]
    | .sql .. => []

def main (args : List String) : IO UInt32 := do
  let names := ["KEYSET_DEFAULT_PAGE_SIZE", "KEYSET_MAXIMUM_PAGE_SIZE"]
  let found ← names.mapM fun name => return (name, ← IO.getEnv name)
  let paths := match Options.read args with
    | .ok o => pathsOf o
    | .error _ => []
  let entries ← paths.mapM fun path => return (path, ← entryAt path)
  let outcome := run
    { args
      lookup := fun name => (found.lookup name).join
      entry := fun path => (entries.lookup path).getD .absent }
  let level := ((← IO.getEnv "KEYSET_LOG").bind Level.ofName?).getD .info
  for line in Event.lines level outcome.events do
    IO.eprintln line
  for line in outcome.lines do
    IO.println (line.render "0")
  match outcome.ending with
  | .done => pure ()
  | .usage => IO.eprintln "Usage: keyset [OPTIONS] <COMMAND>"
  | .failed f => IO.eprintln ("Error: " ++ f.message)
  return UInt32.ofNat outcome.ending.status
