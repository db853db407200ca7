import EntityFlow.Number.Integer

/-!
# Decimals

Decimal numbers with the number of decimal places they were written with. Two decimals of one
value and different places, such as 1.5 and 1.50, are different texts of one number.
-/

namespace EntityFlow

/-- The number `coefficient / 10 ^ scale`. -/
structure Decimal where
  coefficient : Int
  scale : Int
deriving Repr, DecidableEq

namespace Decimal

/-! ## Reading -/

/-- Splits a text in front of the first character that satisfies a test. -/
def splitBefore (test : Char → Bool) (cs : List Char) : List Char × List Char :=
  (cs.takeWhile (!test ·), cs.dropWhile (!test ·))

/-- The exponent after a mark: a sign and digits, none but these. -/
def readExponent? (cs : List Char) : Option Int :=
  if cs.contains '_' then none else Integer.read? cs

/-- Reads a decimal: digits with at most one point, and an exponent after `e` or `E`. A scale beyond
a signed word of 64 bits is refused. -/
def read? (cs : List Char) : Option Decimal := do
  let (base, mark) := splitBefore (fun c => c == 'e' || c == 'E') cs
  let exponent ← match mark with
    | [] => some 0
    | _ :: rest => readExponent? rest
  let (lead, point) := splitBefore (· == '.') base
  let trail := point.drop 1
  let coefficient ← Integer.read? (lead ++ trail)
  let places := (trail.filter (· != '_')).length
  let scale := (places : Int) - exponent
  if Integer.fitsWord scale then some ⟨coefficient, scale⟩ else none

/-! ## Writing -/

/-- More zeros than this between the point and the first digit are written as an exponent. -/
def leadingZeroLimit : Nat := 5

/-- More zeros than this in front of the missing point are written as an exponent. -/
def trailingZeroLimit : Nat := 15

/-- The digits of a number that is not zero, with as many places as its scale says. -/
def plainDigits (digits : List Char) (scale : Int) : List Char :=
  match scale with
  | .negSucc n => digits ++ List.replicate (n + 1) '0'
  | .ofNat 0 => digits
  | .ofNat places =>
      let padded := List.replicate (places + 1 - digits.length) '0' ++ digits
      padded.take (padded.length - places) ++ '.' :: padded.drop (padded.length - places)

/-- The first digit, a point and the other digits if there are any, and an exponent. -/
def scientificDigits (digits : List Char) (exponent : Int) : List Char :=
  digits.take 1 ++ (if digits.length ≤ 1 then [] else '.' :: digits.drop 1) ++
    'E' :: (Integer.text exponent).toList

/-- The text of a decimal: its digits with its places, zero as a single digit, and an exponent
where there would be too many zeros. A small number has its point behind the first digit and a
capital mark; a large one keeps its digits whole and has a small mark and a plus sign. -/
def chars (d : Decimal) : List Char :=
  let digits := Integer.digits d.coefficient.natAbs
  let sign := if d.coefficient < 0 then ['-'] else []
  if d.coefficient = 0 then ['0']
  else if d.scale > digits.length + leadingZeroLimit then
    sign ++ scientificDigits digits (digits.length - 1 - d.scale)
  else if d.scale < -trailingZeroLimit then
    sign ++ digits ++ 'e' :: '+' :: (Integer.text (-d.scale)).toList
  else sign ++ plainDigits digits d.scale

/-- The text of a decimal. -/
def text (d : Decimal) : String := String.ofList d.chars

end Decimal

end EntityFlow
