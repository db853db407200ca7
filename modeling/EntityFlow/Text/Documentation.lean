import EntityFlow.Text.Line

/-!
# Documentation comments

The text of a documentation comment is what stands between its marks, without the star at the
front of each line.
-/

namespace EntityFlow.Text

/-- A line of a comment without the blanks at its ends, its star and one space after the star. -/
def documentationLine (line : List Char) : List Char :=
  match trim line with
  | '*' :: ' ' :: rest => rest
  | '*' :: rest => rest
  | plain => plain

/-- The text of a documentation comment. -/
def documentation (comment : List Char) : List Char :=
  let body := dropBack ['*', '/'] (dropFront ['/', '*', '*'] (trim comment))
  trim (join ['\n'] ((lines body).map documentationLine))

end EntityFlow.Text
