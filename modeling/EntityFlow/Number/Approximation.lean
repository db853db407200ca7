import EntityFlow.Number.Binary64
import EntityFlow.Number.Decimal

/-!
# Approximations of decimals

The binary floating point number that a decimal is converted to, and which decimals are not changed
by it: those that are the shortest decimal of their approximation. The conversion is not the nearest
number throughout: a long coefficient loses digits at its end, and a coefficient that is followed
by zeros is rounded and then multiplied by a rounded power of ten.
-/

namespace EntityFlow.Decimal

open EntityFlow.Binary64

/-- Of a long coefficient at least about as many digits as this are converted. -/
def convertedDigits : Nat := 25

/-- As many digits as this are dropped at once. -/
def droppedDigits : Nat := 19

/-- About the number of decimal digits of a number, from the number of its binary digits. -/
def estimateDigits (n : Nat) : Nat := (n.log2 + 2) * 30102999566398119521 / Nat.pow 10 20

/-- How many digits at the end of a coefficient are dropped. -/
def dropCount (n : Nat) : Nat :=
  (estimateDigits n - convertedDigits) / droppedDigits * droppedDigits

/-- The approximation of `n / 10 ^ scale`: the nearest number, if there are places behind the point;
otherwise the nearest number of `n` times a power of ten. -/
def approximate? (n : Nat) (scale : Int) : Option Float64 :=
  match -scale with
  | .ofNat zeros => do (← nearest? ⟨n, 1⟩).mul? (← tenPower? zeros)
  | .negSucc _ => nearest? (scaled n 10 (-scale))

/-- The size of a decimal as a fraction. -/
def size (d : Decimal) : Fraction := scaled d.coefficient.natAbs 10 (-d.scale)

/-- Whether a decimal that is not zero is so far beyond the greatest or the least number of the
format that it has no approximation or zero. -/
def outOfRange (d : Decimal) : Bool :=
  let first : Int := (Integer.digits d.coefficient.natAbs).length - d.scale
  first > 310 || first < -330

/-- The approximation of a decimal without its sign; `none` beyond the greatest number. -/
def toFloat64? (d : Decimal) : Option Float64 :=
  let n := d.coefficient.natAbs
  if n = 0 then some .zero
  else if d.outOfRange then none
  else if d.scale = 0 then nearest? ⟨n, 1⟩
  else approximate? (n / Nat.pow 10 (dropCount n)) (d.scale - dropCount n)

/-- Whether a decimal is the shortest decimal of a number of the format; of two equally near ones
that is the greater one. -/
def isShortestOf (d : Decimal) (f : Float64) : Bool :=
  if f.mantissa = 0 then d.coefficient == 0
  else
    let (coefficient, exponent) := f.shortest .greater
    (scaled coefficient 10 exponent).same d.size

/-- The approximation of a decimal that reads back as the decimal. -/
def unchanged? (d : Decimal) : Option Float64 := d.toFloat64?.filter d.isShortestOf

end EntityFlow.Decimal
