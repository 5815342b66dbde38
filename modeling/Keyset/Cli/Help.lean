/-!
# Help

What the program tells about itself: its version, its commands, and for each command how it is
called and what its options mean.
-/
namespace Keyset.Cli

def versionLine : String := "keyset 0.1.0"

/-- What help is asked about. -/
inductive Topic where
  | program
  | page
  | scan
  | sql
  | help
  deriving DecidableEq, Repr

namespace Topic

/-- The topic of a command. -/
def ofName? : String → Option Topic
  | "page" => some .page
  | "scan" => some .scan
  | "sql" => some .sql
  | "help" => some .help
  | _ => none

def about : Topic → String
  | .program => "Keyset pagination over CSV files and SQL tables"
  | .page => "Print one page of a CSV file as JSON lines"
  | .scan => "Walk every page of a CSV file and print a summary"
  | .sql => "Print the SQL that fetches one page of a table"
  | .help => "Print this message or the help of the given subcommand(s)"

def usage : Topic → String
  | .program => "keyset [OPTIONS] <COMMAND>"
  | .page => "keyset page [OPTIONS] --file <FILE> --order <ORDER>"
  | .scan => "keyset scan [OPTIONS] --file <FILE> --order <ORDER>"
  | .sql => "keyset sql [OPTIONS] --table <TABLE> --order <ORDER>"
  | .help => "keyset help [COMMAND]..."

/-- An option as help shows it: its short form, its long form and its meaning. -/
structure Described where
  short : String
  long : String
  meaning : String

namespace Described

def file : Described := ⟨"", "--file <FILE>", "CSV file path"⟩

def table : Described := ⟨"", "--table <TABLE>", "Table name, optionally schema-qualified"⟩

def settings : Described := ⟨"", "--settings <SETTINGS>",
  "Pagination settings JSON file; defaults come from KEYSET_* environment variables"⟩

def order : Described :=
  ⟨"", "--order <ORDER>", "Ordering, e.g. \"created_at:desc,id:desc:distinct\""⟩

def perPage : Described :=
  ⟨"", "--per-page <PER_PAGE>", "Rows per page; clamped to the configured maximum"⟩

def cursor : Described := ⟨"", "--cursor <CURSOR>", "Cursor token returned by a previous page"⟩

def fallback : Described := ⟨"", "--fallback-first-page",
  "Start from the first page when the cursor token is unusable"⟩

def dialect : Described := ⟨"", "--dialect <DIALECT>",
  "SQL dialect: \"postgres\" or \"mysql\" [default: postgres]"⟩

def help : Described := ⟨"-h", "--help", "Print help"⟩

def version : Described := ⟨"-V", "--version", "Print version"⟩

/-- The meanings of all options stand in one column. -/
def line (d : Described) : String :=
  let short := if d.short = "" then "    " else d.short ++ ", "
  "  " ++ short ++ d.long ++ String.ofList (List.replicate (23 - d.long.length) ' ') ++ d.meaning

end Described

def options : Topic → List Described
  | .program => [.settings, .help, .version]
  | .page => [.file, .settings, .order, .perPage, .cursor, .fallback, .help]
  | .scan => [.file, .settings, .order, .perPage, .help]
  | .sql => [.settings, .table, .order, .perPage, .cursor, .dialect, .help]
  | .help => []

/-- The commands that are called from here. -/
def commandLines : Topic → List String
  | .program => ["  page  " ++ page.about, "  scan  " ++ scan.about, "  sql   " ++ sql.about,
      "  help  " ++ help.about]
  | _ => []

/-- The arguments that are no options. -/
def argumentLines : Topic → List String
  | .help => ["  [COMMAND]...  Print help for the subcommand(s)"]
  | _ => []

/-- A titled part of a help text, which is left out if it is empty. -/
def titled (title : String) (lines : List String) : List String :=
  if lines.isEmpty then [] else "" :: title :: lines

def lines (t : Topic) : List String :=
  [t.about, "", "Usage: " ++ t.usage] ++ titled "Commands:" t.commandLines ++
    titled "Arguments:" t.argumentLines ++ titled "Options:" (t.options.map (·.line))

end Topic

end Keyset.Cli
