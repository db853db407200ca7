import EntityFlow.Command.Directory
import EntityFlow.Command.Invocation
import EntityFlow.Document.Compile

/-!
# The log

Apart from what its commands report, the program keeps a log on the second output stream. A filter
lets some events of a run pass, and each of them is written on a line of its own. The filter comes
from the surroundings of the run: no setting of an invocation changes it, silence included. The
constructs that a document leaves out are the warnings of a run (`Invocation.warnings`); all its
other events are for debugging.
-/

namespace EntityFlow

/-- What the filter of a log lets pass. -/
inductive LogFilter
  /-- Nothing, or errors alone, of which a run has none. -/
  | off
  /-- The warnings and nothing for debugging, as it is where no filter is asked for. -/
  | warnings
  /-- Anything else. -/
  | other
deriving Repr, DecidableEq

/-- A log: its filter, and how it writes what passes. -/
structure Log where
  filter : LogFilter
  /-- The lines of warnings, with all that the log tells of each. -/
  lines : List Remark → String
  lines_eq_empty_iff : ∀ warnings, lines warnings = "" ↔ warnings = []
  /-- What it writes under another filter. The events for debugging follow from the invocation and
  the content of its file. -/
  details : Invocation → Except ReadFailure String → List Remark → String

namespace Log

/-- What the log writes in a run with these warnings. -/
def write (log : Log) (i : Invocation) (content : Except ReadFailure String)
    (warnings : List Remark) : String :=
  match log.filter with
  | .off => ""
  | .warnings => log.lines warnings
  | .other => log.details i content warnings

variable {log : Log}

theorem write_of_off (off : log.filter = .off) (i : Invocation)
    (content : Except ReadFailure String) (warnings : List Remark) :
    log.write i content warnings = "" := by
  rw [write, off]

/-- With warnings alone, the log is empty if there are none. -/
theorem write_eq_empty_iff (passing : log.filter = .warnings) (i : Invocation)
    (content : Except ReadFailure String) (warnings : List Remark) :
    log.write i content warnings = "" ↔ warnings = [] := by
  rw [write, passing]
  exact log.lines_eq_empty_iff warnings

/-! ## Plain logs -/

/-- The line of a warning: the message and the place. -/
def plainLine (r : Remark) : String :=
  "WARN " ++ r.message ++ " line=" ++ toString r.line ++ " column=" ++ toString r.column ++ "\n"

/-- The lines of warnings. -/
def plainLines (warnings : List Remark) : String := String.join (warnings.map plainLine)

theorem plainLines_eq_empty_iff (warnings : List Remark) :
    plainLines warnings = "" ↔ warnings = [] := by
  cases warnings with
  | nil => exact iff_of_true rfl rfl
  | cons first others =>
    refine iff_of_false ?_ (List.cons_ne_nil first others)
    simp [plainLines, plainLine, String.join_cons]

/-- The log without times and colours, and without events for debugging. -/
def plain (filter : LogFilter) : Log where
  filter
  lines := plainLines
  lines_eq_empty_iff := plainLines_eq_empty_iff
  details _ _ := plainLines

/-- The log that is switched off. -/
def off : Log := plain .off

end Log

/-- The warnings of a run: those of the parse, if the run comes to one. How strict or how silent the
invocation is makes no difference. -/
def Invocation.warnings (i : Invocation) (content : Except ReadFailure String) : List Remark :=
  match i.language <|> Language.ofPath? i.file, content with
  | some language, .ok source =>
      match Parse.ofSource? language Parse.defaultLimit source with
      | .ok p => p.warnings language
      | .error _ => []
  | _, _ => []

end EntityFlow
