import Mathlib.Algebra.Field.Rat
import EntityFlow.Number.Integer

/-!
# Reading JSON

A reader of JSON texts that follows the grammar of the format and nothing else: it knows how no text
was written. Numbers keep their exact value, whatever their size and the number of their places, and
objects keep their members in the order of the text, repeated keys included.

Nesting is read with a bound, which the length of the text always is: every value takes at least one
character.
-/

namespace EntityFlow.Json

/-- What a JSON text says. -/
inductive Data
  | null
  | bool (b : Bool)
  | number (value : ℚ)
  | string (s : String)
  | array (items : List Data)
  | object (members : List (String × Data))

namespace Reader

/-! ## Space -/

/-- The characters that may stand between the parts of a text. -/
def isSpace (c : Char) : Bool := c == ' ' || c == '\t' || c == '\n' || c == '\r'

/-- The text after the space in front of it. -/
def skip (cs : List Char) : List Char := cs.dropWhile isSpace

/-! ## Strings -/

/-- The value of a hexadecimal digit, large or small. -/
def hexValue? (c : Char) : Option Nat :=
  if '0' ≤ c ∧ c ≤ '9' then some (c.toNat - '0'.toNat)
  else if 'a' ≤ c ∧ c ≤ 'f' then some (c.toNat - 'a'.toNat + 10)
  else if 'A' ≤ c ∧ c ≤ 'F' then some (c.toNat - 'A'.toNat + 10)
  else none

/-- The number that four hexadecimal digits stand for. -/
def unit? : List Char → Option (Nat × List Char)
  | a :: b :: c :: d :: rest => do
      let a ← hexValue? a
      let b ← hexValue? b
      let c ← hexValue? c
      let d ← hexValue? d
      return (((a * 16 + b) * 16 + c) * 16 + d, rest)
  | _ => none

/-- The character of one unit of UTF-16, or of two that are a pair of surrogates. -/
def codePoint? (cs : List Char) : Option (Char × List Char) := do
  let (high, rest) ← unit? cs
  if high < 0xD800 ∨ 0xE000 ≤ high then some (Char.ofNat high, rest)
  else if 0xDC00 ≤ high then none
  else
    match rest with
    | '\\' :: 'u' :: more => do
        let (low, rest) ← unit? more
        if 0xDC00 ≤ low ∧ low < 0xE000 then
          some (Char.ofNat (0x10000 + (high - 0xD800) * 0x400 + (low - 0xDC00)), rest)
        else none
    | _ => none

/-- The character that is written with what follows a backslash. -/
def escaped? : List Char → Option (Char × List Char)
  | '"' :: rest => some ('"', rest)
  | '\\' :: rest => some ('\\', rest)
  | '/' :: rest => some ('/', rest)
  | 'b' :: rest => some (Char.ofNat 8, rest)
  | 'f' :: rest => some (Char.ofNat 12, rest)
  | 'n' :: rest => some ('\n', rest)
  | 'r' :: rest => some ('\r', rest)
  | 't' :: rest => some ('\t', rest)
  | 'u' :: rest => codePoint? rest
  | _ => none

/-- The characters up to the closing quote; control characters have to be written with a
backslash. -/
def chars? : Nat → List Char → Option (List Char × List Char)
  | 0, _ => none
  | _, [] => none
  | _ + 1, '"' :: rest => some ([], rest)
  | n + 1, '\\' :: rest => do
      let (c, rest) ← escaped? rest
      let (cs, rest) ← chars? n rest
      return (c :: cs, rest)
  | n + 1, c :: rest =>
      if c.toNat < 32 then none
      else do
        let (cs, rest) ← chars? n rest
        return (c :: cs, rest)

/-- The string whose opening quote has been read. -/
def string? (cs : List Char) : Option (String × List Char) := do
  let (inner, rest) ← chars? cs.length cs
  return (String.ofList inner, rest)

/-! ## Numbers -/

/-- The digits in front of a text, and what follows them. -/
def digits (cs : List Char) : List Char × List Char :=
  (cs.takeWhile Char.isDigit, cs.dropWhile Char.isDigit)

/-- The digits in front of the point: no zero stands in front of others. -/
def whole? (cs : List Char) : Option (List Char × List Char) :=
  match digits cs with
  | ([], _) => none
  | ('0' :: _ :: _, _) => none
  | found => some found

/-- The digits behind the point, if there is one. -/
def fraction? (cs : List Char) : Option (List Char × List Char) :=
  match cs with
  | '.' :: rest =>
      match digits rest with
      | ([], _) => none
      | found => some found
  | _ => some ([], cs)

/-- The sign of an exponent, if there is one. -/
def exponentSign (cs : List Char) : Bool × List Char :=
  match cs with
  | '-' :: rest => (true, rest)
  | '+' :: rest => (false, rest)
  | _ => (false, cs)

/-- The exponent of ten, if there is one. -/
def exponent? (cs : List Char) : Option (Int × List Char) :=
  match cs with
  | [] => some (0, [])
  | mark :: signed =>
      if mark = 'e' ∨ mark = 'E' then
        let (negative, unsigned) := exponentSign signed
        match digits unsigned with
        | ([], _) => none
        | (found, rest) =>
            let size : Int := Integer.ofDigits found
            some (if negative then -size else size, rest)
      else some (0, cs)

/-- A number without a sign. -/
def size? (cs : List Char) : Option (ℚ × List Char) := do
  let (whole, cs) ← whole? cs
  let (fraction, cs) ← fraction? cs
  let (exponent, cs) ← exponent? cs
  return ((Integer.ofDigits (whole ++ fraction) : ℚ) * 10 ^ (exponent - fraction.length), cs)

/-- A number. -/
def number? (cs : List Char) : Option (ℚ × List Char) :=
  match cs with
  | '-' :: rest => (size? rest).map fun (size, rest) => (-size, rest)
  | _ => size? cs

/-! ## Texts -/

/-- The literal names. -/
def words : List (List Char × Data) :=
  [("null".toList, .null), ("true".toList, .bool true), ("false".toList, .bool false)]

/-- What a literal name in front of a text stands for. -/
def word? (cs : List Char) : Option (Data × List Char) :=
  words.findSome? fun (word, data) =>
    if word.isPrefixOf cs then some (data, cs.drop word.length) else none

mutual

/-- The value in front of a text, and what follows it. -/
def value? : Nat → List Char → Option (Data × List Char)
  | 0, _ => none
  | n + 1, cs =>
      match skip cs with
      | '"' :: rest => (string? rest).map fun (s, rest) => (.string s, rest)
      | '[' :: rest =>
          match skip rest with
          | ']' :: rest => some (.array [], rest)
          | rest => (items? n rest).map fun (items, rest) => (.array items, rest)
      | '\x7b' :: rest =>
          match skip rest with
          | '\x7d' :: rest => some (.object [], rest)
          | rest => (members? n rest).map fun (members, rest) => (.object members, rest)
      | cs => word? cs <|> (number? cs).map fun (value, rest) => (.number value, rest)

/-- The items up to the closing bracket. -/
def items? : Nat → List Char → Option (List Data × List Char)
  | 0, _ => none
  | n + 1, cs => do
      let (item, rest) ← value? n cs
      match skip rest with
      | ']' :: rest => return ([item], rest)
      | ',' :: rest => do
          let (items, rest) ← items? n rest
          return (item :: items, rest)
      | _ => none

/-- The members up to the closing brace. -/
def members? : Nat → List Char → Option (List (String × Data) × List Char)
  | 0, _ => none
  | n + 1, cs =>
      match skip cs with
      | '"' :: rest => do
          let (key, rest) ← string? rest
          match skip rest with
          | ':' :: rest => do
              let (item, rest) ← value? n rest
              match skip rest with
              | '\x7d' :: rest => return ([(key, item)], rest)
              | ',' :: rest => do
                  let (members, rest) ← members? n rest
                  return ((key, item) :: members, rest)
              | _ => none
          | _ => none
      | _ => none

end

end Reader

/-- What a text says, if it is one value with nothing but space around it. -/
def read? (text : String) : Option Data :=
  match Reader.value? (text.length + 1) text.toList with
  | some (data, rest) => if Reader.skip rest = [] then some data else none
  | none => none

end EntityFlow.Json
