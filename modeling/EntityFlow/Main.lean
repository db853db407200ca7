import EntityFlow.Command.Reply

/-!
# The program

Reads the file of an invocation, and writes the reply. The log is off.
-/

namespace EntityFlow

/-- How the program is called. -/
def usage : String :=
  "Usage: zdl [--output text|json] [--quiet] build [--lang zdl|zfl] [--strict] FILE\n" ++
  "       zdl [--output text|json] [--quiet] check [--lang zdl|zfl] FILE\n"

/-- The number of a system error, which some operations report negated. -/
def errorNumber (code : UInt32) : UInt32 := if code < 0x80000000 then code else -code

/-- The content of a file. -/
def readSource (file : String) : IO (Except ReadFailure String) := do
  try
    let bytes ← IO.FS.readBinFile file
    return (match String.fromUTF8? bytes with
      | some source => Content.text source
      | none => .binary).source
  catch error =>
    match error with
    | .noFileOrDirectory .. => return .error .notFound
    | .inappropriateType _ code _ =>
        return .error (if errorNumber code = 21 then .isDirectory else .notDirectory)
    | .invalidArgument _ code _ =>
        return .error (if errorNumber code = 36 then .nameTooLong else .other (toString error))
    | other => return .error (.other (toString other))

end EntityFlow

open EntityFlow in
/-- Runs the program. -/
def main (args : List String) : IO UInt32 := do
  match Request.ofArguments args with
  | .usageError =>
      IO.eprint usage
      return 2
  | .help =>
      IO.print usage
      return 0
  | .run invocation =>
      let reply := invocation.reply (← readSource invocation.file) .off
      IO.eprint reply.stderr
      IO.print reply.stdout
      return reply.exit.toUInt32
