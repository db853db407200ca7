/-!
# Binary floating point numbers of 64 bits

The numbers of the format that are not negative, rounding to them, their products and powers, and
the shortest decimals that are read as them. All arithmetic is exact. A number of the format is
`mantissa · 2 ^ exponent`, with the exponent not below -1074 and the mantissa below `2 ^ 53`.
-/

namespace EntityFlow.Binary64

/-- A number of the format without its sign. -/
structure Float64 where
  mantissa : Nat
  exponent : Int
deriving Repr, DecidableEq

/-- The number zero. -/
def Float64.zero : Float64 := ⟨0, 0⟩

/-- The fraction `num / den`. -/
structure Fraction where
  num : Nat
  den : Nat
deriving Repr, DecidableEq

/-- Whether two fractions are equal. -/
def Fraction.same (a b : Fraction) : Bool := a.num * b.den == b.num * a.den

/-- The fraction `n · base ^ e`. -/
def scaled (n base : Nat) (e : Int) : Fraction :=
  match e with
  | .ofNat k => ⟨n * Nat.pow base k, 1⟩
  | .negSucc k => ⟨n, Nat.pow base (k + 1)⟩

/-! ## Rounding -/

/-- The quotient rounded to the nearest natural number, a half to the even neighbour. -/
def roundHalfEven (num den : Nat) : Nat :=
  let q := num / den
  let r := num % den
  if 2 * r < den then q
  else if den < 2 * r then q + 1
  else if q % 2 = 0 then q else q + 1

/-- The exponent at which the mantissa of a fraction has 53 digits, or the least exponent. -/
def binaryExponent (x : Fraction) : Int :=
  let guess : Int := (x.num.log2 : Int) - (x.den.log2 : Int) - 53
  let fits (e : Int) : Bool :=
    -- whether the fraction is below `2 ^ (53 + e)`
    match 53 + e with
    | .ofNat k => x.num < x.den * Nat.pow 2 k
    | .negSucc k => x.num * Nat.pow 2 (k + 1) < x.den
  max (if fits guess then guess else guess + 1) (-1074)

/-- The number of the format nearest to a positive fraction, a half going to the even mantissa;
`none` beyond the greatest number. -/
def nearest? (x : Fraction) : Option Float64 :=
  let e := binaryExponent x
  let m :=
    match e with
    | .ofNat k => roundHalfEven x.num (x.den * Nat.pow 2 k)
    | .negSucc k => roundHalfEven (x.num * Nat.pow 2 (k + 1)) x.den
  let f : Float64 := if m = Nat.pow 2 53 then ⟨Nat.pow 2 52, e + 1⟩ else ⟨m, e⟩
  if f.exponent > 971 then none else some f

/-! ## Products -/

/-- The product of two numbers of the format, rounded. -/
def Float64.mul? (a b : Float64) : Option Float64 :=
  nearest? (scaled (a.mantissa * b.mantissa) 2 (a.exponent + b.exponent))

/-- The product `r · a ^ n` by repeated squaring of `a`, every square and every product rounded;
the squares are taken from the first on. -/
def mulPower? (r a : Float64) (n : Nat) : Nat → Option Float64
  | 0 => some r
  | steps + 1 => do
      let r ← if n % 2 = 1 then r.mul? a else some r
      if n / 2 = 0 then some r else mulPower? r (← a.mul? a) (n / 2) steps

/-- A power of ten, rounded as `mulPower?` says; the exponents have at most 64 binary digits. -/
def tenPower? (n : Nat) : Option Float64 := mulPower? ⟨1, 0⟩ ⟨10, 0⟩ n 64

/-! ## Shortest decimals -/

/-- Whether a fraction is nearer to a number of the format than to its neighbours; the bounds
themselves count where the mantissa is even. Both are compared in quarters of the last place. -/
def Float64.holds (f : Float64) (x : Fraction) : Bool :=
  let below := if f.mantissa = Nat.pow 2 52 ∧ f.exponent > -1074 then 1 else 2
  let low := scaled (4 * f.mantissa - below) 2 (f.exponent - 2)
  let high := scaled (4 * f.mantissa + 2) 2 (f.exponent - 2)
  if f.mantissa % 2 = 0 then
    low.num * x.den ≤ x.num * low.den && x.num * high.den ≤ high.num * x.den
  else low.num * x.den < x.num * low.den && x.num * high.den < high.num * x.den

/-- The exponent of ten of the first digit of a positive fraction. -/
def decimalExponent (x : Fraction) : Int :=
  let digits (n : Nat) : Int := (Nat.toDigits 10 n).length
  let guess := digits x.num - digits x.den
  let unit := scaled 1 10 guess
  if x.num * unit.den ≥ unit.num * x.den then guess else guess - 1

/-- Which of two equally near decimals stands for a number. -/
inductive Tie
  | greater
  | even
deriving Repr, DecidableEq

/-- Whether the lower of two equally near decimals is taken, given its coefficient. -/
def Tie.takesLower (tie : Tie) (lower : Nat) : Bool :=
  match tie with
  | .greater => false
  | .even => lower % 2 == 0

/-- The decimals next to a fraction that are a whole number of units `10 ^ unit`, those first that
are nearer; of two equally near ones the one that the tie rule takes. -/
def neighbours (tie : Tie) (x : Fraction) (unit : Int) : List (Nat × Int) :=
  let u := scaled 1 10 unit
  let num := x.num * u.den
  let den := x.den * u.num
  let q := num / den
  let r := num % den
  if r = 0 then [(q, unit)]
  else if 2 * r < den ∨ (2 * r = den ∧ tie.takesLower q) then [(q, unit), (q + 1, unit)]
  else [(q + 1, unit), (q, unit)]

/-- The first decimal that is read as a number of the format, in units from `10 ^ first` down. -/
def shortestFrom (tie : Tie) (f : Float64) (x : Fraction) (first : Int) : Nat → Nat → Nat × Int
  | 0, _ => (0, 0)
  | n + 1, places =>
      let candidates := neighbours tie x (first - places)
      match candidates.find? fun (c, e) => f.holds (scaled c 10 e) with
      | some found => found
      | none => shortestFrom tie f x first n (places + 1)

/-- The shortest decimal that is read as a positive number of the format, as a coefficient and an
exponent of ten; of several the nearest. The search starts one place in front of the first digit,
where a number may be rounded up to, so the coefficient does not end in zero; seventeen digits
always suffice. -/
def Float64.shortest (tie : Tie) (f : Float64) : Nat × Int :=
  let x := scaled f.mantissa 2 f.exponent
  shortestFrom tie f x (decimalExponent x + 1) 18 0

end EntityFlow.Binary64
