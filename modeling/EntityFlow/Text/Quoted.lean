import EntityFlow.Text.Line

/-!
# Quoted texts

Reading a quoted text drops its quotes and takes a backslash in front of a quote away. Every other
backslash stays, also one in front of a backslash.
-/

namespace EntityFlow.Text

/-- Takes away the backslash of every pair of a backslash and a quote. -/
def unescape (quote : Char) : List Char → List Char
  | [] => []
  | ['\\'] => ['\\']
  | '\\' :: c :: rest =>
      if c = quote then quote :: unescape quote rest else '\\' :: unescape quote (c :: rest)
  | c :: rest => c :: unescape quote rest

/-- The text that a quoted text stands for; a quote that is missing at an end is not needed. -/
def unquote (quote : Char) (cs : List Char) : List Char :=
  unescape quote (dropBack [quote] (dropFront [quote] cs))

end EntityFlow.Text
