import EntityFlow.Text.Table

/-!
# Character properties

The character classes that the two languages and the naming rules ask for. ASCII is decided by
rule, every other character by its table, so a statement about ASCII text never opens a table.
-/

namespace EntityFlow.Text

/-- The characters of the ASCII range. -/
def isAscii (c : Char) : Bool := c.toNat < 128

/-- Membership of a character in a table of progressions. -/
def Table.has (table : List Progression) (c : Char) : Bool :=
  table.any (·.contains c.toNat)

/-- Letters and letter-like characters. -/
def isAlphabetic (c : Char) : Bool :=
  if isAscii c then c.isAlpha else Table.has Table.alphabetic c

/-- Digits and other number characters of any script. -/
def isNumeric (c : Char) : Bool :=
  if isAscii c then c.isDigit else Table.has Table.numeric c

/-- Letters and numbers of any script. -/
def isAlphanumeric (c : Char) : Bool := isAlphabetic c || isNumeric c

/-- Blanks and line ends of any script. -/
def isBlank (c : Char) : Bool :=
  if isAscii c then (9 ≤ c.toNat && c.toNat ≤ 13) || c == ' ' else Table.has Table.whiteSpace c

/-- Capital letters. -/
def isUppercase (c : Char) : Bool :=
  if isAscii c then c.isUpper else Table.has Table.uppercase c

/-- Small letters. -/
def isLowercase (c : Char) : Bool :=
  if isAscii c then c.isLower else Table.has Table.lowercase c

/-- Characters that have a letter case: capital, small or title case. -/
def isCased (c : Char) : Bool :=
  isUppercase c || isLowercase c || Table.has Table.titlecase c

/-- Characters that case conversion looks past when it asks whether a letter ends a word. -/
def isCaseIgnorable (c : Char) : Bool :=
  if isAscii c then c == '\'' || c == '.' || c == ':' || c == '^' || c.toNat == 96
  else Table.has Table.caseIgnorable c

end EntityFlow.Text
