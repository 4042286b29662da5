/-
Reading command lines.

Options may stand before and behind the words they do not belong to.  A long option has its value
behind an equals sign or as the next argument; short options may share one hyphen, and the last of
them may have its value right behind it.  Behind `--` nothing is an option.  The first word of the
program is the command; what follows is read with the options of the command as well.  Requests for
help or the version end the reading.
-/
import LogLens.Cli.Command
import LogLens.Text.Slice

namespace LogLens
namespace Cli

/-! ## Options -/

inductive Switch where
  | format
  | color
  | verbose
  | config
  | help
  | version
  | query
  | start
  | finish
  | last
  | fuzzy
  | caseSensitive
  | limit
  | countBy
  deriving DecidableEq

namespace Switch

def long : Switch → String
  | format => "format"
  | color => "color"
  | verbose => "verbose"
  | config => "config"
  | help => "help"
  | version => "version"
  | query => "query"
  | start => "from"
  | finish => "to"
  | last => "last"
  | fuzzy => "fuzzy"
  | caseSensitive => "case-sensitive"
  | limit => "limit"
  | countBy => "count-by"

def short? : Switch → Option Char
  | format => some 'F'
  | verbose => some 'v'
  | help => some 'h'
  | version => some 'V'
  | query => some 'q'
  | limit => some 'n'
  | _ => none

def hasValue : Switch → Bool
  | verbose | help | version | fuzzy | caseSensitive => false
  | _ => true

/-- The options that may be given for a command, or in front of it. -/
def allowed : Option CommandName → List Switch
  | none => [format, color, verbose, config, help, version]
  | some .search =>
    [format, color, verbose, config, help, query, start, finish, last, fuzzy, caseSensitive, limit,
      countBy]
  | some _ => [format, color, verbose, config, help]

def ofLong? (command : Option CommandName) (name : String) : Option Switch :=
  (allowed command).find? (·.long == name)

def ofShort? (command : Option CommandName) (c : Char) : Option Switch :=
  (allowed command).find? (·.short? == some c)

end Switch

/-- What is wrong with a command line. -/
inductive UsageError where
  | unexpected (argument : String)
  | unknownCommand (name : String)
  | missingCommand
  | missingFile
  | missingValue (s : Switch)
  | invalidValue (s : Switch) (value : String)
  | unneededValue (s : Switch)
  | repeated (s : Switch)
  | conflict (s t : Switch)
  | emptyPath
  deriving DecidableEq

def UsageError.message : UsageError → String
  | unexpected argument => "unexpected argument '" ++ argument ++ "' found"
  | unknownCommand name => "unrecognized subcommand '" ++ name ++ "'"
  | missingCommand => "a subcommand is required but none was given"
  | missingFile => "a file is required but none was given"
  | missingValue s => "a value is required for '--" ++ s.long ++ "' but none was supplied"
  | invalidValue s value => "invalid value '" ++ value ++ "' for '--" ++ s.long ++ "'"
  | unneededValue s => "no value is allowed for '--" ++ s.long ++ "'"
  | repeated s => "the argument '--" ++ s.long ++ "' cannot be used multiple times"
  | conflict s t =>
    "the argument '--" ++ s.long ++ "' cannot be used with '--" ++ t.long ++ "'"
  | emptyPath => "a path may not be empty"

/-- Why reading ends early. -/
inductive Stop where
  | usage (e : UsageError)
  | answer (r : Request)

/-! ## What was given -/

/-- Options and files as they were given; what was not given is not set. -/
structure Given where
  format : Option OutputFormat := none
  color : Option ColorMode := none
  verbosity : Option Nat := none
  config : Option String := none
  query : Option String := none
  start : Option String := none
  finish : Option String := none
  last : Option Query.Preset := none
  fuzzy : Bool := false
  caseSensitive : Bool := false
  limit : Option Nat := none
  countBy : List String := []
  files : List String := []

/-- The largest count. -/
def maxCount : Nat := 18446744073709551615

/-- A count, maybe with a plus in front. -/
def count? (s : String) : Option Nat :=
  let digits := match s.toList with
    | '+' :: rest => rest
    | cs => cs
  if digits.isEmpty || !digits.all isDigit || maxCount < digitsValue digits then none
  else some (digitsValue digits)

/-- A path; the empty one is none. -/
def path? (s : String) : Option String := if s.isEmpty then none else some s

/-- The value for an option that may be given once. -/
def once {α : Type} (s : Switch) (old : Option α) (read : String → Option α) (value : String) :
    Except Stop (Option α) :=
  if old.isSome then .error (.usage (.repeated s))
  else match read value with
    | some v => .ok (some v)
    | none => .error (.usage (.invalidValue s value))

namespace Given

/-- Takes an option with its value. -/
def setValue (g : Given) (s : Switch) (value : String) : Except Stop Given := do
  match s with
  | .format => return { g with format := ← once s g.format OutputFormat.ofName? value }
  | .color => return { g with color := ← once s g.color ColorMode.ofName? value }
  | .config => return { g with config := ← once s g.config path? value }
  | .query => return { g with query := ← once s g.query some value }
  | .start => return { g with start := ← once s g.start some value }
  | .finish => return { g with finish := ← once s g.finish some value }
  | .last => return { g with last := ← once s g.last Query.Preset.ofName? value }
  | .limit => return { g with limit := ← once s g.limit count? value }
  | .countBy => return { g with countBy := g.countBy ++ [value] }
  | _ => .error (.usage (.unneededValue s))

/-- Takes an option that has no value. -/
def setFlag (command : Option CommandName) (g : Given) (s : Switch) : Except Stop Given :=
  match s with
  | .verbose => .ok { g with verbosity := some (g.verbosity.getD 0 + 1) }
  | .help => .error (.answer (.help command))
  | .version => .error (.answer .version)
  | .fuzzy =>
    if g.fuzzy then .error (.usage (.repeated s)) else .ok { g with fuzzy := true }
  | .caseSensitive =>
    if g.caseSensitive then .error (.usage (.repeated s)) else .ok { g with caseSensitive := true }
  | _ => .error (.usage (.missingValue s))

/-- Takes a file; one command takes only one. -/
def addFile (command : CommandName) (g : Given) (file : String) : Except Stop Given :=
  if command = .parse ∧ !g.files.isEmpty then .error (.usage (.unexpected file))
  else if file.isEmpty then .error (.usage .emptyPath)
  else .ok { g with files := g.files ++ [file] }

end Given

/-! ## Reading -/

/-- An argument as its first characters show it. -/
inductive Word where
  | escape
  | long (name : String) (value : Option String)
  | short (cs : List Char)
  | plain (s : String)

def Word.of (s : String) : Word :=
  match s.toList with
  | ['-', '-'] => .escape
  | '-' :: '-' :: rest =>
    .long (String.ofList (rest.takeWhile (· != '=')))
      (match rest.dropWhile (· != '=') with
        | _ :: value => some (String.ofList value)
        | [] => none)
  | '-' :: c :: rest => .short (c :: rest)
  | _ => .plain s

/-- Reads short options that share a hyphen.  The last of them may wait for its value. -/
def readShort (command : Option CommandName) (g : Given) :
    List Char → Except Stop (Given × Option Switch)
  | [] => .ok (g, none)
  | c :: cs =>
    match Switch.ofShort? command c with
    | none => .error (.usage (.unexpected (String.ofList ['-', c])))
    | some s =>
      if s.hasValue then
        match cs with
        | [] => .ok (g, some s)
        | '=' :: value => (g.setValue s (String.ofList value)).map (·, none)
        | value => (g.setValue s (String.ofList value)).map (·, none)
      else (g.setFlag command s).bind fun g => readShort command g cs

/-- Reads a long option, which may wait for its value. -/
def readLong (command : Option CommandName) (g : Given) (name : String) (value : Option String) :
    Except Stop (Given × Option Switch) :=
  match Switch.ofLong? command name, value with
  | none, _ => .error (.usage (.unexpected ("--" ++ name)))
  | some s, some v =>
    if s.hasValue then (g.setValue s v).map (·, none) else .error (.usage (.unneededValue s))
  | some s, none =>
    if s.hasValue then .ok (g, some s) else (g.setFlag command s).map (·, none)

/-- Reads the arguments of a command, of which one option may wait for its value. -/
def readCommand (command : CommandName) (pending : Option Switch) (escaped : Bool) (g : Given) :
    List String → Except Stop Given
  | [] =>
    match pending with
    | some s => .error (.usage (.missingValue s))
    | none => .ok g
  | arg :: rest =>
    if escaped then (g.addFile command arg).bind fun g => readCommand command none true g rest
    else match pending, Word.of arg with
      | some s, .plain value =>
        (g.setValue s value).bind fun g => readCommand command none false g rest
      | some s, _ => .error (.usage (.missingValue s))
      | none, .escape => readCommand command none true g rest
      | none, .long name value =>
        (readLong command g name value).bind fun (g, pending) =>
          readCommand command pending false g rest
      | none, .short cs =>
        (readShort command g cs).bind fun (g, pending) =>
          readCommand command pending false g rest
      | none, .plain file =>
        (g.addFile command file).bind fun g => readCommand command none false g rest

/-- Reads the arguments up to the command; what follows its name is left. -/
def readProgram (pending : Option Switch) (g : Given) :
    List String → Except Stop (Given × String × List String)
  | [] =>
    match pending with
    | some s => .error (.usage (.missingValue s))
    | none => .error (.usage .missingCommand)
  | arg :: rest =>
    match pending, Word.of arg with
    | some s, .plain value => (g.setValue s value).bind fun g => readProgram none g rest
    | some s, _ => .error (.usage (.missingValue s))
    | none, .escape =>
      .error (.usage (match rest with
        | [] => .missingCommand
        | next :: _ => .unexpected next))
    | none, .long name value =>
      (readLong none g name value).bind fun (g, pending) => readProgram pending g rest
    | none, .short cs =>
      (readShort none g cs).bind fun (g, pending) => readProgram pending g rest
    | none, .plain name => .ok (g, name, rest)

/-! ## Requests -/

/-- A setting behind the command counts before the same setting in front of it. -/
def settingsOf (front back : Given) (environment : Option String) : Settings where
  format := (back.format.or front.format).getD .text
  color := (back.color.or front.color).getD .auto
  verbosity := (back.verbosity.or front.verbosity).getD 0
  config := (back.config.or front.config).or environment

/-- The path of the configuration that the environment gives may be empty only where it does not
count. -/
def checkEnvironment (front back : Given) (environment : Option String) : Except Stop Unit :=
  if environment = some "" ∧ (front.config.isNone ∨ back.config.isNone) then
    .error (.usage .emptyPath)
  else .ok ()

def commandOf (command : CommandName) (g : Given) : Except Stop Command :=
  match command, g.files with
  | _, [] => .error (.usage .missingFile)
  | .parse, file :: _ => .ok (.parse file)
  | .fields, files => .ok (.fields files)
  | .stats, files => .ok (.stats files)
  | .search, files =>
    if g.last.isSome ∧ g.start.isSome then .error (.usage (.conflict .last .start))
    else if g.last.isSome ∧ g.finish.isSome then .error (.usage (.conflict .last .finish))
    else .ok (.search {
      files
      query := g.query.getD ""
      start := g.start
      finish := g.finish
      last := g.last
      fuzzy := g.fuzzy
      caseSensitive := g.caseSensitive
      limit := g.limit
      countBy := g.countBy })

/-- What a request for help is about: the program, or the named command. -/
def helpTopic? (name : String) : Option (Option CommandName) :=
  if name = "help" then some none else (CommandName.ofName? name).map some

/-- The request for help on what is named.  Commands have no commands of their own, so a second name
is one too many. -/
def helpOf : List String → Stop
  | [] => .answer (.help none)
  | name :: rest =>
    match helpTopic? name, rest with
    | none, _ => .usage (.unknownCommand name)
    | some topic, [] => .answer (.help topic)
    | some _, next :: _ => .usage (.unknownCommand next)

def readAll (arguments : List String) (environment : Option String) : Except Stop Invocation := do
  let (front, name, rest) ← readProgram none {} arguments
  match CommandName.ofName? name with
  | none => .error (if name = "help" then helpOf rest else .usage (.unknownCommand name))
  | some command =>
    let back ← readCommand command none false {} rest
    checkEnvironment front back environment
    return ⟨settingsOf front back environment, ← commandOf command back⟩

/-- What the arguments ask for; the environment may give the path of the configuration. -/
def readArguments (arguments : List String) (environment : Option String) :
    Except UsageError Request :=
  match readAll arguments environment with
  | .ok i => .ok (.run i)
  | .error (.answer r) => .ok r
  | .error (.usage e) => .error e

end Cli
end LogLens
