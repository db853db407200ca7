import EntityFlow.Text.Property

/-!
# Trimming, lines and affixes of texts

Texts are lists of characters. A line ends at a line feed, which may have a carriage return in
front of it; a final line feed opens no further line.
-/

namespace EntityFlow.Text

/-- The text without the blanks at its two ends. -/
def trim (cs : List Char) : List Char :=
  ((cs.dropWhile isBlank).reverse.dropWhile isBlank).reverse

/-- The text without `affix` in front, if it stands there. -/
def dropFront (affix cs : List Char) : List Char :=
  if affix.isPrefixOf cs then cs.drop affix.length else cs

/-- The text without `affix` at its end, if it stands there. -/
def dropBack (affix cs : List Char) : List Char :=
  if affix.isSuffixOf cs then cs.take (cs.length - affix.length) else cs

/-- The pieces between the occurrences of a separator character: one more than there are
occurrences. -/
def splitAtChar (sep : Char) : List Char → List (List Char)
  | [] => [[]]
  | c :: rest =>
      if c = sep then [] :: splitAtChar sep rest
      else (splitAtChar sep rest).modifyHead (c :: ·)

/-- The lines of a text without their line ends. -/
def lines (cs : List Char) : List (List Char) :=
  let pieces := splitAtChar '\n' cs
  pieces.dropLast.map (dropBack ['\r']) ++ (pieces.getLast?.filter (· ≠ [])).toList

/-- The pieces joined with a separator between neighbours. -/
def join (sep : List Char) (pieces : List (List Char)) : List Char :=
  sep.intercalate pieces

end EntityFlow.Text
