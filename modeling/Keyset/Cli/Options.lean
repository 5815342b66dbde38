import Keyset.Cli.Help
import Keyset.Number.Whole

/-!
# Command line options

Arguments are read from left to right, first those of the program, then a command and its own.
An option takes the next argument, or what stands behind `=`; a separate argument that starts with
`-` is never a value. A fault is reported where it stands. No option may come twice; where the
second value is an argument of its own, this is noticed only at the next option or at the end, so a
command that follows is read first and may still show its help.
-/
namespace Keyset.Cli

/-- What an option takes. -/
inductive Kind where
  | text
  | integer
  | flag
  deriving DecidableEq, Repr

/-- The options that may be given, by name. -/
abbrev Accepted := List (String × Kind)

/-- The options that are given; a flag has an empty value. -/
abbrev Given := List (String × String)

/-- Why reading stops before the end. -/
inductive Stop where
  | usage
  | version
  | help (topic : Topic)
  deriving DecidableEq, Repr

inductive Command where
  | page (file order : String) (size : Option Int64) (token : Option String) (fallback : Bool)
  | scan (file order : String) (size : Option Int64)
  | sql (table order : String) (size : Option Int64) (token : Option String) (dialect : String)
  deriving DecidableEq, Repr

structure Options where
  settings : Option String
  command : Command
  deriving DecidableEq, Repr

def settingsOption : Accepted := [("settings", .text)]

/-- The options of each command. -/
def accepted? : String → Option Accepted
  | "page" => some [("file", .text), ("order", .text), ("per-page", .integer), ("cursor", .text),
      ("fallback-first-page", .flag), ("settings", .text)]
  | "scan" => some [("file", .text), ("order", .text), ("per-page", .integer), ("settings", .text)]
  | "sql" => some [("table", .text), ("order", .text), ("per-page", .integer), ("cursor", .text),
      ("dialect", .text), ("settings", .text)]
  | _ => none

/-- The name of an option and what stands behind `=`. -/
def splitOption (cs : List Char) : String × Option String :=
  let name := cs.takeWhile (· ≠ '=')
  (String.ofList name,
    match cs.drop name.length with
    | [] => none
    | _ :: value => some (String.ofList value))

def isValue (kind : Kind) (value : String) : Bool :=
  kind = .text || (kind = .integer && (Number.int64? value.toList).isSome)

/-- A single `-` is an ordinary argument. -/
def isPlain (arg : String) : Bool :=
  match arg.toList with
  | '-' :: _ :: _ => false
  | _ => true

def startsPlain : List String → Bool
  | arg :: _ => isPlain arg
  | [] => false

/-- An argument that reading comes to. -/
inductive Token where
  | long (name : String) (value : Option String)
  | short (letter : Char)
  | plain (text : String)
  /-- A bare `--`, behind which there are only plain arguments. -/
  | separator

def Token.ofArg (arg : String) : Token :=
  match arg.toList with
  | ['-', '-'] => .separator
  | '-' :: '-' :: cs => let (name, value) := splitOption cs; .long name value
  | '-' :: c :: _ => .short c
  | _ => .plain arg

/-- Reads options up to the first plain argument. It returns what is given, and that argument with
all that follows it. Only the program itself tells its version. -/
def readOptions (topic : Topic) (accepted : Accepted) (given : Given) :
    List String → Except Stop (Given × List String)
  | [] => .ok (given, [])
  | arg :: args =>
    match Token.ofArg arg with
    | .plain _ => .ok (given, arg :: args)
    | .separator => if args.isEmpty then .ok (given, []) else .error .usage
    | .short c =>
      .error (if c = 'h' then .help topic
        else if c = 'V' ∧ topic = .program then .version
        else .usage)
    | .long name value =>
      if name = "help" ∧ value.isNone then .error (.help topic)
      else if name = "version" ∧ value.isNone ∧ topic = .program then .error .version
      else match accepted.lookup name with
        | none => .error .usage
        | some kind =>
          let again := (given.lookup name).isSome
          if kind = .flag then
            if again ∨ value.isSome then .error .usage
            else readOptions topic accepted ((name, "") :: given) args
          else match value, args with
            | some value, args =>
              if isValue kind value ∧ !again then
                readOptions topic accepted ((name, value) :: given) args
              else .error .usage
            | none, value :: args =>
              if isPlain value ∧ isValue kind value ∧ (!again || startsPlain args) then
                readOptions topic accepted ((name, value) :: given) args
              else .error .usage
            | none, [] => .error .usage

/-- The command of its options, if all that it needs are given. -/
def command? (name : String) (given : Given) : Option Command := do
  let order ← given.lookup "order"
  let size := (given.lookup "per-page").bind fun s => Number.int64? s.toList
  match name with
  | "page" =>
    return .page (← given.lookup "file") order size (given.lookup "cursor")
      (given.lookup "fallback-first-page").isSome
  | "scan" => return .scan (← given.lookup "file") order size
  | "sql" =>
    return .sql (← given.lookup "table") order size (given.lookup "cursor")
      ((given.lookup "dialect").getD "postgres")
  | _ => none

/-- The word `help` may be followed by the command it is about. -/
def readHelp : List String → Stop
  | [] => .help .program
  | [name] =>
    match Topic.ofName? name with
    | some topic => .help topic
    | none => .usage
  | _ => .usage

namespace Options

/-- The options of all arguments. Settings given behind the command win. -/
def read (args : List String) : Except Stop Options := do
  match ← readOptions .program settingsOption [] args with
  | (_, []) => throw .usage
  | (_, "help" :: rest) => throw (readHelp rest)
  | (program, name :: rest) =>
    let some topic := Topic.ofName? name | throw .usage
    let some accepted := accepted? name | throw .usage
    match ← readOptions topic accepted [] rest with
    | (given, []) =>
      unless (program.map (·.1)).Nodup do throw .usage
      let some command := command? name given | throw .usage
      return ⟨(given.lookup "settings").or (program.lookup "settings"), command⟩
    | _ => throw .usage

end Options

end Keyset.Cli
