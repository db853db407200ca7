import EntityFlow.Data.OrderedMap
import EntityFlow.Number.Binary64
import EntityFlow.Number.Decimal

/-!
# JSON text

JSON documents and their two written forms: compact, without any space, and pretty, with one entry
or item per line and two spaces of indentation. A floating point number is written as its shortest
decimal.
-/

namespace EntityFlow

/-- A JSON document. -/
inductive Json
  | bool (b : Bool)
  | int (n : Int)
  | float (negative : Bool) (size : Binary64.Float64)
  | string (s : String)
  | array (items : List Json)
  | object (members : List (String × Json))
deriving Repr

namespace Json

/-! ## Strings -/

/-- A digit of a hexadecimal number in small letters. -/
def hexDigit (n : Nat) : Char := if n < 10 then Char.ofNat (48 + n) else Char.ofNat (87 + n)

/-- How a character is written within a string. -/
def escapeChar (c : Char) : List Char :=
  if c = '"' then ['\\', '"']
  else if c = '\\' then ['\\', '\\']
  else if c = '\n' then ['\\', 'n']
  else if c = '\r' then ['\\', 'r']
  else if c = '\t' then ['\\', 't']
  else if c.toNat = 8 then ['\\', 'b']
  else if c.toNat = 12 then ['\\', 'f']
  else if c.toNat < 32 then ['\\', 'u', '0', '0', hexDigit (c.toNat / 16), hexDigit (c.toNat % 16)]
  else [c]

/-- A string with its quotes. -/
def quoted (s : String) : List Char := '"' :: s.toList.flatMap escapeChar ++ ['"']

/-! ## Numbers -/

/-- The exponents of the first digit that are written with digits alone. -/
def isPlainExponent (first : Int) : Bool := -5 ≤ first && first ≤ 15

/-- The digits of the number `coefficient · 10 ^ exponent`, which is not zero. -/
def floatDigits (coefficient : Nat) (exponent : Int) : List Char :=
  let digits := Integer.digits coefficient
  let first : Int := digits.length - 1 + exponent
  if isPlainExponent first then
    Decimal.plainDigits digits (-exponent) ++ (if exponent < 0 then [] else ['.', '0'])
  else
    digits.take 1 ++ (if digits.length ≤ 1 then [] else '.' :: digits.drop 1) ++
      'e' :: (if first < 0 then [] else ['+']) ++ (Integer.text first).toList

/-- A floating point number as its shortest decimal, of two equally near ones the even one. -/
def floatText (negative : Bool) (size : Binary64.Float64) : List Char :=
  let (coefficient, exponent) := size.shortest .even
  (if negative then ['-'] else []) ++
    (if size.mantissa = 0 then ['0', '.', '0'] else floatDigits coefficient exponent)

/-! ## Documents -/

/-- The form of documents that have no parts. -/
def scalar : Json → List Char
  | .bool true => "true".toList
  | .bool false => "false".toList
  | .int n => (Integer.text n).toList
  | .float negative size => floatText negative size
  | .string s => quoted s
  | .array _ => []
  | .object _ => []

mutual

/-- The compact form of a document. -/
def compact : Json → List Char
  | .array items => '[' :: compactItems items ++ [']']
  | .object members => '\x7b' :: compactMembers members ++ ['\x7d']
  | other => scalar other

/-- The compact form of items, with commas between them. -/
def compactItems : List Json → List Char
  | [] => []
  | [item] => compact item
  | item :: next :: rest => compact item ++ ',' :: compactItems (next :: rest)

/-- The compact form of members, with commas between them. -/
def compactMembers : List (String × Json) → List Char
  | [] => []
  | [(key, item)] => quoted key ++ ':' :: compact item
  | (key, item) :: next :: rest =>
      quoted key ++ ':' :: compact item ++ ',' :: compactMembers (next :: rest)

end

/-- A line end and the indentation of a level. -/
def newline (level : Nat) : List Char := '\n' :: List.replicate (2 * level) ' '

mutual

/-- The pretty form of a document at a level of indentation. -/
def prettyAt (level : Nat) : Json → List Char
  | .array [] => ['[', ']']
  | .object [] => ['\x7b', '\x7d']
  | .array (item :: rest) =>
      '[' :: newline (level + 1) ++ prettyItems (level + 1) (item :: rest) ++ newline level ++ [']']
  | .object (member :: rest) =>
      '\x7b' :: newline (level + 1) ++ prettyMembers (level + 1) (member :: rest) ++
        newline level ++ ['\x7d']
  | other => scalar other

/-- The pretty form of items, one to a line. -/
def prettyItems (level : Nat) : List Json → List Char
  | [] => []
  | [item] => prettyAt level item
  | item :: next :: rest =>
      prettyAt level item ++ ',' :: newline level ++ prettyItems level (next :: rest)

/-- The pretty form of members, one to a line. -/
def prettyMembers (level : Nat) : List (String × Json) → List Char
  | [] => []
  | [(key, item)] => quoted key ++ ':' :: ' ' :: prettyAt level item
  | (key, item) :: next :: rest =>
      quoted key ++ ':' :: ' ' :: prettyAt level item ++ ',' :: newline level ++
        prettyMembers level (next :: rest)

end

/-- The compact text of a document. -/
def text (j : Json) : String := String.ofList (compact j)

/-- The pretty text of a document. -/
def prettyText (j : Json) : String := String.ofList (prettyAt 0 j)

/-! ## Order of members -/

/-- The members of an object in the order of their keys. -/
def sortMembers (members : List (String × Json)) : List (String × Json) :=
  members.mergeSort fun a b => decide (a.1 ≤ b.1)

mutual

/-- The document with the members of every object in the order of their keys. -/
def sorted : Json → Json
  | .array items => .array (sortedItems items)
  | .object members => .object (sortMembers (sortedMembers members))
  | other => other

/-- Every item sorted. -/
def sortedItems : List Json → List Json
  | [] => []
  | item :: rest => sorted item :: sortedItems rest

/-- Every member sorted; the members themselves stay in their order. -/
def sortedMembers : List (String × Json) → List (String × Json)
  | [] => []
  | (key, item) :: rest => (key, sorted item) :: sortedMembers rest

end

end Json

end EntityFlow
