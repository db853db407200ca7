import EntityFlow.Language

/-!
# Command lines

The arguments of the program and the invocation that they stand for. There are two commands, each
with one file; the settings that hold for every command may stand in front of the command or after
it, and count where they stand last. Whatever does not fit is a usage error.
-/

namespace EntityFlow

/-- How errors and diagnostics are written. -/
inductive OutputFormat
  | text
  | json
deriving Repr, DecidableEq

/-- The commands. -/
inductive Command
  /-- Writes the document of a file. -/
  | build
  /-- Tells whether the document of a file leaves anything out. -/
  | check
deriving Repr, DecidableEq

/-- A command with all that it needs to know. -/
structure Invocation where
  command : Command
  file : String
  /-- The language that was asked for; otherwise it follows from the name of the file. -/
  language : Option Language
  strict : Bool
  output : OutputFormat
  quiet : Bool
deriving Repr, DecidableEq

/-- What a list of arguments stands for. -/
inductive Request
  | run (invocation : Invocation)
  | help
  | usageError
deriving Repr, DecidableEq

namespace Invocation

/-! ## Arguments -/

/-- The settings given on one side of the command. -/
structure Settings where
  output : Option OutputFormat := none
  quiet : Bool := false
deriving Repr, DecidableEq

/-- What is known after some arguments of a command. -/
structure Draft where
  command : Command
  outer : Settings
  inner : Settings := {}
  file : Option String := none
  language : Option Language := none
  strict : Bool := false
  /-- Whether every further argument is a file, whatever it looks like. -/
  onlyFiles : Bool := false
deriving Repr, DecidableEq

/-- The format of a name. -/
def format? (name : String) : Option OutputFormat :=
  match name with
  | "text" => some .text
  | "json" => some .json
  | _ => none

/-- The command of a name. -/
def command? (name : String) : Option Command :=
  match name with
  | "build" => some .build
  | "check" => some .check
  | _ => none

/-- The word that asks for help in the place of a command. -/
def helpWord : String := "help"

/-- Whether an argument has the form of an option. A hyphen alone has not. -/
def isOption (arg : String) : Bool := arg.startsWith "-" && arg != "-"

/-- An argument: a word, or an option with the value attached to it by an equals sign. -/
inductive Argument
  | word (text : String)
  | option (name : String) (attached : Option String)
deriving Repr, DecidableEq

/-- Takes an argument apart. -/
def Argument.ofText (text : String) : Argument :=
  if isOption text then
    if text.startsWith "--" && text.contains '=' then
      let cs := text.toList
      .option (String.ofList (cs.takeWhile (· != '=')))
        (some (String.ofList ((cs.dropWhile (· != '=')).drop 1)))
    else .option text none
  else .word text

/-- The value of an option: what is attached to it, or the next argument unless that has the form of
an option. The second part of the result is what follows. -/
def optionValue? (attached : Option String) (rest : List String) :
    Option (String × List String) :=
  match attached, rest with
  | some value, _ => some (value, rest)
  | none, value :: more => if isOption value then none else some (value, more)
  | none, [] => none

/-- The settings with a format, unless they have one. -/
def Settings.withOutput? (s : Settings) (name : String) : Option Settings :=
  match s.output, format? name with
  | none, some format => some { s with output := some format }
  | _, _ => none

/-- The settings with silence, unless they have it. -/
def Settings.withQuiet? (s : Settings) (attached : Option String) : Option Settings :=
  if s.quiet || attached.isSome then none else some { s with quiet := true }

/-- Whether an option asks for help on the program or its version. -/
def asksForHelp (name : String) : Bool := name == "--help" || name.startsWith "-h"

/-- Whether an option asks for the version. -/
def asksForVersion (name : String) : Bool := name == "--version" || name.startsWith "-V"

/-! ## After the command -/

/-- The request of a command whose arguments are complete. -/
def Draft.request (p : Draft) : Request :=
  match p.file with
  | none => .usageError
  | some file =>
      .run
        { command := p.command
          file
          language := p.language
          strict := p.strict
          output := (p.inner.output <|> p.outer.output).getD .text
          quiet := p.inner.quiet || p.outer.quiet }

/-- The command with a file, unless it has one. -/
def Draft.withFile? (p : Draft) (file : String) : Option Draft :=
  if p.file.isSome || file.isEmpty then none else some { p with file := some file }

/-- The command with a language, unless it has one. -/
def Draft.withLanguage? (p : Draft) (name : String) : Option Draft :=
  match p.language, Language.ofName name with
  | none, .ok language => some { p with language := some language }
  | _, _ => none

/-- The command with strictness, if it can have it and has it not. -/
def Draft.withStrict? (p : Draft) (attached : Option String) : Option Draft :=
  if p.command = .build ∧ !p.strict ∧ attached.isNone then some { p with strict := true } else none

/-- What one argument of a command comes to: a request, or more of the command and the arguments
that follow. -/
def Draft.step (p : Draft) (arg : String) (rest : List String) :
    Except Request (Draft × List String) :=
  let orUsage (next : Option (Draft × List String)) : Except Request (Draft × List String) :=
    match next with
    | some next => .ok next
    | none => .error .usageError
  if p.onlyFiles then orUsage ((p.withFile? arg).map (·, rest))
  else
    match Argument.ofText arg with
    | .word file => orUsage ((p.withFile? file).map (·, rest))
    | .option "--" none => .ok ({ p with onlyFiles := true }, rest)
    | .option "--output" attached =>
        orUsage do
          let (value, more) ← optionValue? attached rest
          let inner ← p.inner.withOutput? value
          return ({ p with inner }, more)
    | .option "--quiet" attached =>
        orUsage ((p.inner.withQuiet? attached).map fun inner => ({ p with inner }, rest))
    | .option "--lang" attached =>
        orUsage do
          let (value, more) ← optionValue? attached rest
          let next ← p.withLanguage? value
          return (next, more)
    | .option "--strict" attached => orUsage ((p.withStrict? attached).map (·, rest))
    | .option name attached =>
        .error (if asksForHelp name ∧ attached.isNone then .help else .usageError)

/-- The request of a command and the arguments after it; `n` bounds their number. -/
def Draft.finish (p : Draft) : Nat → List String → Request
  | _, [] => p.request
  | 0, _ => .usageError
  | n + 1, arg :: rest =>
      match p.step arg rest with
      | .error request => request
      | .ok (next, more) => next.finish n more

/-! ## In front of the command -/

/-- The request of the word that asks for help and of what follows it: at most the name of one
command, which may be that word itself. -/
def helpRequest : List String → Request
  | [] => .help
  | [name] => if (command? name).isSome || name == helpWord then .help else .usageError
  | _ => .usageError

/-- The request of a whole list of arguments; `n` bounds their number. -/
def requestFrom (outer : Settings) : Nat → List String → Request
  | _, [] => .usageError
  | 0, _ => .usageError
  | n + 1, arg :: rest =>
      match Argument.ofText arg with
      | .word name =>
          match command? name with
          | some command => Draft.finish { command, outer } n rest
          | none => if name = helpWord then helpRequest rest else .usageError
      | .option "--output" attached =>
          match optionValue? attached rest with
          | none => .usageError
          | some (value, more) =>
              match outer.withOutput? value with
              | some settings => requestFrom settings n more
              | none => .usageError
      | .option "--quiet" attached =>
          match outer.withQuiet? attached with
          | some settings => requestFrom settings n rest
          | none => .usageError
      | .option name attached =>
          if (asksForHelp name || asksForVersion name) && attached.isNone then .help
          else .usageError

end Invocation

/-- The request of the arguments of the program. -/
def Request.ofArguments (args : List String) : Request :=
  Invocation.requestFrom {} args.length args

end EntityFlow
