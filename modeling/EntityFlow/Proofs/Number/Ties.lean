import Mathlib.Algebra.Order.Field.Rat
import Mathlib.Tactic.FieldSimp
import Mathlib.Tactic.Linarith
import Mathlib.Tactic.Ring
import EntityFlow.Number.Approximation

/-!
# Ties between shortest decimals

A floating point number that lies half-way between two decimals of the same number of places is read
from both of them, and its shortest decimal depends on how a tie is broken. The two rules differ in
nothing else (`shortest_cases`): either they find one decimal, or the number lies exactly half-way
between the two they find, and these are neighbours.
-/

namespace EntityFlow.Binary64

/-! ## Exact values -/

/-- The exact value of a fraction. -/
def Fraction.value (x : Fraction) : ℚ := x.num / x.den

/-- The exact value of a number of the format. -/
def Float64.value (f : Float64) : ℚ := f.mantissa * 2 ^ f.exponent

theorem scaled_den_pos (n : Nat) {base : Nat} (positive : 0 < base) (e : Int) :
    0 < (scaled n base e).den := by
  cases e with
  | ofNat k => exact Nat.one_pos
  | negSucc k => exact Nat.pow_pos positive

theorem value_scaled (n base : Nat) (e : Int) :
    (scaled n base e).value = (n : ℚ) * (base : ℚ) ^ e := by
  cases e with
  | ofNat k => simp [scaled, Fraction.value]
  | negSucc k => simp [scaled, Fraction.value, zpow_negSucc, div_eq_mul_inv]

theorem Fraction.same_iff {x y : Fraction} (left : 0 < x.den) (right : 0 < y.den) :
    x.same y = true ↔ x.value = y.value := by
  have leftCast : (x.den : ℚ) ≠ 0 := by exact_mod_cast left.ne'
  have rightCast : (y.den : ℚ) ≠ 0 := by exact_mod_cast right.ne'
  unfold same value
  rw [beq_iff_eq, div_eq_div_iff leftCast rightCast]
  exact_mod_cast Iff.rfl

/-! ## Candidates -/

/-- Zero is nearer to zero than to any other number. -/
theorem not_holds_zero {f : Float64} (positive : 0 < f.mantissa) (e : Int) :
    f.holds (scaled 0 10 e) = false := by
  have zero : (scaled 0 10 e).num = 0 := by cases e <;> simp [scaled]
  have den : 0 < (scaled 0 10 e).den := scaled_den_pos 0 (by decide) e
  have low (n : Nat) (some : 0 < n) : 0 < (scaled n 2 (f.exponent - 2)).num := by
    unfold scaled
    cases f.exponent - 2 with
    | ofNat k => exact Nat.mul_pos some (Nat.pow_pos (by decide))
    | negSucc k => exact some
  have fits : (if f.mantissa = Nat.pow 2 52 ∧ f.exponent > -1074 then 1 else 2) ≤ 2 := by
    split <;> decide
  unfold Float64.holds
  rw [zero]
  dsimp only
  generalize (if f.mantissa = Nat.pow 2 52 ∧ f.exponent > -1074 then 1 else 2) = below at fits ⊢
  have bound : 0 < (scaled (4 * f.mantissa - below) 2 (f.exponent - 2)).num * (scaled 0 10 e).den :=
    Nat.mul_pos (low _ (by omega)) den
  rw [Nat.zero_mul]
  split
  · rw [decide_eq_false (by omega), Bool.false_and]
  · rw [decide_eq_false (by omega), Bool.false_and]

/-- Half a unit more than a whole number of units. -/
theorem value_of_tie {x : Fraction} {unit : Int} (positive : 0 < x.den)
    (tie : 2 * (x.num * (scaled 1 10 unit).den % (x.den * (scaled 1 10 unit).num)) =
      x.den * (scaled 1 10 unit).num) :
    2 * x.value =
      (2 * (x.num * (scaled 1 10 unit).den / (x.den * (scaled 1 10 unit).num) : Nat) + 1) *
        (10 : ℚ) ^ unit := by
  have unitValue : (scaled 1 10 unit).value = (10 : ℚ) ^ unit := by simp [value_scaled]
  have unitDen : ((scaled 1 10 unit).den : ℚ) ≠ 0 := by
    exact_mod_cast (scaled_den_pos 1 (by decide) unit).ne'
  have den : (x.den : ℚ) ≠ 0 := by exact_mod_cast positive.ne'
  generalize known : scaled 1 10 unit = u at tie unitValue unitDen ⊢
  have whole := Nat.div_add_mod (x.num * u.den) (x.den * u.num)
  generalize x.num * u.den / (x.den * u.num) = q at whole ⊢
  have twice : 2 * (x.num * u.den) = (2 * q + 1) * (x.den * u.num) := by
    rw [← whole, Nat.mul_add, tie]
    ring
  have cast : 2 * ((x.num : ℚ) * u.den) = (2 * q + 1) * (x.den * u.num) := by exact_mod_cast twice
  rw [← unitValue]
  unfold Fraction.value
  field_simp
  linarith

/-- The two rules name the same neighbours in the same order, but for those that are equally near
where the lower one is even. -/
theorem neighbours_cases {x : Fraction} (positive : 0 < x.den) (unit : Int) :
    neighbours .even x unit = neighbours .greater x unit ∨
      ∃ q : Nat, neighbours .greater x unit = [(q + 1, unit), (q, unit)] ∧
        neighbours .even x unit = [(q, unit), (q + 1, unit)] ∧
        q % 2 = 0 ∧ 2 * x.value = (2 * q + 1) * (10 : ℚ) ^ unit := by
  unfold neighbours
  dsimp only
  by_cases exact : x.num * (scaled 1 10 unit).den % (x.den * (scaled 1 10 unit).num) = 0
  · rw [if_pos exact, if_pos exact]
    exact .inl rfl
  rw [if_neg exact, if_neg exact]
  by_cases below : 2 * (x.num * (scaled 1 10 unit).den % (x.den * (scaled 1 10 unit).num)) <
      x.den * (scaled 1 10 unit).num
  · rw [if_pos (.inl below), if_pos (.inl below)]
    exact .inl rfl
  by_cases tie : 2 * (x.num * (scaled 1 10 unit).den % (x.den * (scaled 1 10 unit).num)) =
      x.den * (scaled 1 10 unit).num
  · by_cases even : (x.num * (scaled 1 10 unit).den / (x.den * (scaled 1 10 unit).num)) % 2 = 0
    · refine .inr ⟨_, ?_, ?_, even, value_of_tie positive tie⟩
      · exact if_neg (by simp [below, Tie.takesLower])
      · exact if_pos (.inr ⟨tie, by simp [Tie.takesLower, even]⟩)
    · left
      rw [if_neg (by simp [tie, Tie.takesLower, even]),
        if_neg (by simp [below, Tie.takesLower])]
  · left
    rw [if_neg (by simp [below, tie]), if_neg (by simp [below, tie])]

/-! ## The search -/

variable {f : Float64} {x : Fraction}

/-- What the two rules find: one decimal, or two neighbours that the number is half-way between. -/
def TieCases (x : Fraction) (even greater : Nat × Int) : Prop :=
  even = greater ∨
    ∃ (q : Nat) (unit : Int), greater = (q + 1, unit) ∧ even = (q, unit) ∧ q % 2 = 0 ∧
      2 * x.value = (2 * q + 1) * (10 : ℚ) ^ unit

theorem shortestFrom_cases (f : Float64) (positive : 0 < x.den) (first : Int) (n places : Nat) :
    TieCases x (shortestFrom .even f x first n places)
      (shortestFrom .greater f x first n places) := by
  induction n generalizing places with
  | zero => exact .inl rfl
  | succ n ih =>
    unfold shortestFrom
    dsimp only
    rcases neighbours_cases positive (first - places) with same | ⟨q, greater, even, isEven, tie⟩
    · rw [same]
      split
      · exact .inl rfl
      · exact ih (places + 1)
    · -- both candidates, one of them or none can be read as the number
      rw [greater, even]
      cases low : f.holds (scaled q 10 (first - places)) with
      | false =>
        cases high : f.holds (scaled (q + 1) 10 (first - places)) with
        | false => simpa [List.find?, low, high] using ih (places + 1)
        | true => simp [List.find?, low, high, TieCases]
      | true =>
        cases high : f.holds (scaled (q + 1) 10 (first - places)) with
        | false => simp [List.find?, low, high, TieCases]
        | true =>
          right
          exact ⟨q, first - places, by simp [List.find?, high], by simp [List.find?, low], isEven,
            tie⟩

/-- **Ties are the only difference between the two rules.** -/
theorem shortest_cases (f : Float64) :
    f.shortest .even = f.shortest .greater ∨
      ∃ (q : Nat) (unit : Int), f.shortest .greater = (q + 1, unit) ∧
        f.shortest .even = (q, unit) ∧ q % 2 = 0 ∧
        2 * f.value = (2 * q + 1) * (10 : ℚ) ^ unit := by
  have value : (scaled f.mantissa 2 f.exponent).value = f.value := by
    rw [value_scaled]
    rfl
  have positive : 0 < (scaled f.mantissa 2 f.exponent).den :=
    scaled_den_pos f.mantissa (by decide) f.exponent
  have cases := shortestFrom_cases f positive
    (decimalExponent (scaled f.mantissa 2 f.exponent) + 1) 18 0
  rw [TieCases, value] at cases
  exact cases

/-- A decimal that is found is not zero, and the zero that stands for none has no exponent. -/
theorem shortestFrom_proper (positive : 0 < f.mantissa) (tie : Tie) (first : Int) (n places : Nat) :
    0 < (shortestFrom tie f x first n places).1 ∨ (shortestFrom tie f x first n places).2 = 0 := by
  induction n generalizing places with
  | zero => exact .inr rfl
  | succ n ih =>
    unfold shortestFrom
    dsimp only
    split
    · rename_i found searched
      obtain ⟨coefficient, exponent⟩ := found
      left
      have held : f.holds (scaled coefficient 10 exponent) = true := by
        simpa using List.find?_some searched
      rcases Nat.eq_zero_or_pos coefficient with zero | positive'
      · rw [zero, not_holds_zero positive] at held
        cases held
      · exact positive'
    · exact ih (places + 1)

theorem shortest_proper (positive : 0 < f.mantissa) (tie : Tie) :
    0 < (f.shortest tie).1 ∨ (f.shortest tie).2 = 0 :=
  shortestFrom_proper positive tie _ _ _

end EntityFlow.Binary64
