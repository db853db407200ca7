import EntityFlow.Value.Basic
import EntityFlow.Json.Basic
import EntityFlow.Number.Approximation

/-!
# Values as JSON

Integers beyond 64 bits, and decimals that their binary floating point approximation would change,
are written as strings of their digits. Where two shortest decimals are equally near to a floating
point number, the greater one is unchanged by it and the even one is written for it.
-/

namespace EntityFlow

/-- An integer as a number, or as a string if it does not fit into 64 bits. -/
def Integer.toJson (n : Int) : Json :=
  if Integer.fitsWord n then .int n else .string (Integer.text n)

/-- A decimal as a floating point number if that reads back as the same number, or as a string. -/
def Decimal.toJson (d : Decimal) : Json :=
  d.unchanged?.elim (.string d.text) (.float (d.coefficient < 0))

namespace Value

mutual

/-- A value as a JSON document, mappings in their own order. -/
def toJson : Value → Json
  | .string s => .string s
  | .integer n => Integer.toJson n
  | .decimal d => d.toJson
  | .boolean b => .bool b
  | .sequence items => .array (itemsToJson items)
  | .mapping entries => .object (entriesToJson entries)

/-- Every item as a JSON document. -/
def itemsToJson : List Value → List Json
  | [] => []
  | item :: rest => toJson item :: itemsToJson rest

/-- Every entry as a member. -/
def entriesToJson : List (String × Value) → List (String × Json)
  | [] => []
  | (key, item) :: rest => (key, toJson item) :: entriesToJson rest

end

end Value

end EntityFlow
