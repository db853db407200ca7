import EntityFlow.Command.Log

/-!
# Replies

What the program answers to an invocation: its exit code and the texts on its two output streams.
The reply is a function of the invocation, of what reading its file comes to and of the log, which
writes on the second stream too; over a directory it is a function of the invocation, the directory
and the log.
-/

namespace EntityFlow

/-- What the program answers. -/
structure Reply where
  exit : Nat
  stdout : String
  stderr : String
deriving Repr, DecidableEq

namespace Reply

/-- A text as a line. -/
def line (text : String) : String := text ++ "\n"

/-- The lines for diagnostics. -/
def diagnosticLines (file : String) (diagnostics : List Diagnostic) : String :=
  String.join (diagnostics.map fun d => line (file ++ ":" ++ d.text))

/-- The report of diagnostics; nothing is reported of none. -/
def diagnosticReport (output : OutputFormat) (file : String) (diagnostics : List Diagnostic) :
    String :=
  match output with
  | .text => diagnosticLines file diagnostics
  | .json =>
      if diagnostics.isEmpty then ""
      else
        line (Json.object [("diagnostics", .array (diagnostics.map Diagnostic.toJson))]
          |>.sorted.prettyText)

/-- The report of a failure in front of compilation. -/
def failureReport (output : OutputFormat) (message : String) : String :=
  match output with
  | .text => line message
  | .json => line (Json.object [("error", .string message)]).text

/-- The report of an error of compilation. -/
def errorReport (output : OutputFormat) (file : String) (error : CompileError) : String :=
  match output with
  | .json => line (error.toJson file).sorted.prettyText
  | .text =>
      line (error.message file) ++
        match error with
        | .strict diagnostics => diagnosticLines file diagnostics
        | .lexical _ => ""

/-- A reply behind what has been written on the second stream before. -/
def after (written : String) (r : Reply) : Reply := { r with stderr := written ++ r.stderr }

@[simp] theorem after_exit (written : String) (r : Reply) : (r.after written).exit = r.exit := rfl

@[simp] theorem after_stdout (written : String) (r : Reply) :
    (r.after written).stdout = r.stdout := rfl

@[simp] theorem after_stderr (written : String) (r : Reply) :
    (r.after written).stderr = written ++ r.stderr := rfl

end Reply

/-- Why an invocation has no model. -/
inductive LoadError
  | unknownLanguage
  | unreadable (failure : ReadFailure)
  | uncompiled (error : CompileError)
deriving Repr

/-- The report of a load error. -/
def LoadError.report (output : OutputFormat) (file : String) : LoadError → String
  | .unknownLanguage =>
      Reply.failureReport output
        ("cannot infer the language of '" ++ file ++ "'; pass --lang zdl or --lang zfl")
  | .unreadable failure =>
      Reply.failureReport output ("error reading '" ++ file ++ "': " ++ failure.message)
  | .uncompiled error => Reply.errorReport output file error

namespace Invocation

/-- A text that is not reported in silence. -/
def unlessQuiet (i : Invocation) (text : String) : String := if i.quiet then "" else text

/-- The model of the file, whose content is given. -/
def load (i : Invocation) (strict : Bool) (content : Except ReadFailure String) :
    Except LoadError Model :=
  match i.language <|> Language.ofPath? i.file with
  | none => .error .unknownLanguage
  | some language =>
      match content with
      | .error failure => .error (.unreadable failure)
      | .ok source =>
          match compile language { strict } source with
          | .error error => .error (.uncompiled error)
          | .ok model => .ok model

/-- The reply to an invocation without a model. -/
def failed (i : Invocation) (error : LoadError) : Reply :=
  { exit := 1, stdout := "", stderr := i.unlessQuiet (error.report i.output i.file) }

/-- The reply of `build`: the document, with a report of what it leaves out. -/
def buildReply (i : Invocation) (content : Except ReadFailure String) : Reply :=
  match i.load i.strict content with
  | .error error => i.failed error
  | .ok model =>
      { exit := 0
        stdout := Reply.line model.document.toJson.prettyText
        stderr := i.unlessQuiet (Reply.diagnosticReport i.output i.file model.diagnostics) }

/-- The reply of `check`: a report of what the document leaves out, or that it is complete. -/
def checkReply (i : Invocation) (content : Except ReadFailure String) : Reply :=
  match i.load false content with
  | .error error => i.failed error
  | .ok model =>
      if model.diagnostics.isEmpty then
        { exit := 0
          stdout := if i.output = .text then i.unlessQuiet (Reply.line (i.file ++ ": ok")) else ""
          stderr := "" }
      else
        { exit := 1
          stdout := ""
          stderr := i.unlessQuiet (Reply.diagnosticReport i.output i.file model.diagnostics) }

/-- What the command of an invocation answers, given the content of its file. -/
def answer (i : Invocation) (content : Except ReadFailure String) : Reply :=
  match i.command with
  | .build => i.buildReply content
  | .check => i.checkReply content

/-- The reply to an invocation, given the content of its file: the log of the run and behind it what
the command answers. -/
def reply (i : Invocation) (content : Except ReadFailure String) (log : Log) : Reply :=
  (i.answer content).after (log.write i content (i.warnings content))

/-- The reply to an invocation in a directory; the log is off unless one is given. -/
def replyIn (i : Invocation) (d : Directory) (log : Log := .off) : Reply :=
  i.reply (d.read i.file) log

end Invocation

end EntityFlow
