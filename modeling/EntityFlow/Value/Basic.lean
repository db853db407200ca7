import EntityFlow.Data.OrderedMap
import EntityFlow.Number.Decimal
import EntityFlow.Text.Line

/-!
# Values

The values that documents are made of: strings, integers and decimals of any size, truth values,
sequences and ordered mappings. There is no null; what is absent has no key.
-/

namespace EntityFlow

/-- A document value. -/
inductive Value
  | string (s : String)
  | integer (n : Int)
  | decimal (d : Decimal)
  | boolean (b : Bool)
  | sequence (items : List Value)
  | mapping (entries : List (String × Value))
deriving Repr

namespace Value

/-! ## Parts -/

/-- The string that a value is. -/
def string? : Value → Option String
  | .string s => some s
  | _ => none

/-- The truth value that a value is. -/
def boolean? : Value → Option Bool
  | .boolean b => some b
  | _ => none

/-- The integer that a value is. -/
def integer? : Value → Option Int
  | .integer n => some n
  | _ => none

/-- The decimal that a value is. -/
def decimal? : Value → Option Decimal
  | .decimal d => some d
  | _ => none

/-- The items of the sequence that a value is. -/
def sequence? : Value → Option (List Value)
  | .sequence items => some items
  | _ => none

/-- The entries of the mapping that a value is. -/
def mapping? : Value → Option (OrderedMap Value)
  | .mapping entries => some entries
  | _ => none

/-- The value of a key; only mappings have keys. -/
def get? (v : Value) (key : String) : Option Value := v.mapping?.bind (OrderedMap.value? · key)

/-- The number of entries or items; zero for a value that has neither. -/
def size : Value → Nat
  | .mapping entries => entries.length
  | .sequence items => items.length
  | _ => 0

/-- The strings among the items of a sequence. -/
def stringItems (v : Value) : List String := (v.sequence?.getD []).filterMap string?

/-! ## Paths -/

/-- The index that a segment of a path stands for: digits after at most one plus sign, below
`2 ^ 64`. -/
def index? (segment : List Char) : Option Nat :=
  let digits := match segment with
    | '+' :: rest => rest
    | all => all
  if digits = [] ∨ !digits.all Char.isDigit then none
  else
    let n := Integer.ofDigits digits
    if n < Nat.pow 2 64 then some n else none

/-- One step into a value: the value of a key or the item at an index. -/
def step? (v : Value) (segment : List Char) : Option Value :=
  match v with
  | .mapping entries => OrderedMap.value? entries (String.ofList segment)
  | .sequence items => (index? segment).bind fun i => items[i]?
  | _ => none

/-- The segments of a dotted path; empty ones do not count. -/
def segments (path : String) : List (List Char) :=
  (Text.splitAtChar '.' path.toList).filter (· ≠ [])

/-- The value at a dotted path. -/
def lookup? (v : Value) (path : String) : Option Value := (segments path).foldlM step? v

/-! ## Records -/

/-- A sequence of strings. -/
def strings (items : List String) : Value := .sequence (items.map .string)

/-- An entry that may be absent. -/
def optional (key : String) (value : Option Value) : List (String × Value) :=
  value.toList.map fun v => (key, v)

end Value

end EntityFlow
