/-!
# Integer text

Decimal digits of integers, and the integers that texts of digits stand for. A text may start with
one sign; underscores may stand between and after its digits.
-/

namespace EntityFlow.Integer

/-- The decimal digits of a natural number, without leading zeros. -/
def digits (n : Nat) : List Char := Nat.toDigits 10 n

/-- The number that a list of digits stands for. -/
def ofDigits (cs : List Char) : Nat := cs.foldl (fun n c => 10 * n + (c.toNat - '0'.toNat)) 0

/-- The text of an integer. -/
def text (n : Int) : String :=
  match n with
  | .ofNat m => String.ofList (digits m)
  | .negSucc m => String.ofList ('-' :: digits (m + 1))

/-- Reads digits with underscores, the first of them a digit. -/
def readDigits? (cs : List Char) : Option Nat :=
  match cs with
  | [] => none
  | '_' :: _ => none
  | _ =>
      let plain := cs.filter (· != '_')
      if plain.all Char.isDigit then some (ofDigits plain) else none

/-- Reads an integer. -/
def read? (cs : List Char) : Option Int :=
  match cs with
  | '-' :: rest => (readDigits? rest).map fun n => -(n : Int)
  | '+' :: rest => (readDigits? rest).map fun n => (n : Int)
  | _ => (readDigits? cs).map fun n => (n : Int)

/-- The number `2 ^ 63`, beyond which a signed word of 64 bits does not reach. -/
def wordBound : Int := 9223372036854775808

/-- Whether an integer fits into a signed word of 64 bits. -/
def fitsWord (n : Int) : Bool := -wordBound ≤ n && n < wordBound

end EntityFlow.Integer
