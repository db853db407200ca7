import EntityFlow.Proofs.Json.Documents
import EntityFlow.Value.Json

/-!
# Serialized values

The compact text of a value, read by a reader that keeps numbers exact and members in order, gives
the value back but for one thing (`Value.read?_toJson`): a decimal may be written as another decimal
where the floating point number it is converted to lies half-way between the two. The test for
decimals that survive the conversion takes the greater one of the two as the decimal of the number,
and the number is written as the other one.
-/

namespace EntityFlow

open Binary64

/-! ## Decimals -/

namespace Decimal

/-- A size with the sign of a decimal. -/
def signed (d : Decimal) (size : ℚ) : ℚ := if d.coefficient < 0 then -size else size

/-- The exact value of a decimal. -/
def value (d : Decimal) : ℚ := d.coefficient * 10 ^ (-d.scale)

theorem signed_injective (d : Decimal) : Function.Injective d.signed := by
  intro x y same
  unfold signed at same
  split at same
  · exact neg_injective same
  · exact same

theorem value_eq_signed (d : Decimal) : d.value = d.signed d.size.value := by
  unfold value signed size
  rw [value_scaled]
  split
  · rename_i negative
    have size : (d.coefficient.natAbs : Int) = -d.coefficient := by omega
    rw [← Int.cast_natCast, size, Int.cast_neg, neg_mul, neg_neg]
    rfl
  · rename_i positive
    have size : (d.coefficient.natAbs : Int) = d.coefficient := by omega
    rw [← Int.cast_natCast, size]
    rfl

/-- A decimal is displaced to `x`: the floating point number that is taken for it lies half-way
between the two, which are neighbours among the decimals of their number of places. The decimal is
the one with the greater size, and the other one ends in an even digit. -/
def Displaced (d : Decimal) (x : ℚ) : Prop :=
  ∃ (f : Float64) (q : Nat) (unit : Int), d.unchanged? = some f ∧
    f.shortest .greater = (q + 1, unit) ∧ f.shortest .even = (q, unit) ∧ q % 2 = 0 ∧
    2 * f.value = (2 * q + 1) * 10 ^ unit ∧
    d.value = d.signed ((q + 1) * 10 ^ unit) ∧ x = d.signed (q * 10 ^ unit)

/-- A displaced decimal is changed. -/
theorem Displaced.ne {d : Decimal} {x : ℚ} (displaced : d.Displaced x) : x ≠ d.value := by
  obtain ⟨f, q, unit, _, _, _, _, _, value, rfl⟩ := displaced
  rw [value]
  intro same
  have equal := d.signed_injective same
  have some : (10 : ℚ) ^ unit ≠ 0 := zpow_ne_zero unit (by norm_num)
  have next := mul_right_cancel₀ some equal
  linarith

/-- A decimal is displaced to the number that is written for it. -/
theorem Displaced.exists_written {d : Decimal} {x : ℚ} (displaced : d.Displaced x) :
    ∃ f, d.unchanged? = some f ∧ x = d.signed f.written := by
  obtain ⟨f, q, unit, approximated, _, even, _, between, _, rfl⟩ := displaced
  refine ⟨f, approximated, ?_⟩
  have some : f.mantissa ≠ 0 := by
    intro zero
    have odd : (0 : ℚ) < 2 * q + 1 := by exact_mod_cast Nat.succ_pos (2 * q)
    have positive := mul_pos odd (zpow_pos (by norm_num : (0 : ℚ) < 10) unit)
    rw [← between, Float64.value, zero] at positive
    simp at positive
  unfold Float64.written
  rw [if_neg some, even]

/-- The number that is written for a decimal is that of the decimal, or displaced. -/
theorem written_cases {d : Decimal} {f : Float64} (approximated : d.unchanged? = some f) :
    d.signed f.written = d.value ∨ d.Displaced (d.signed f.written) := by
  have shortest : d.isShortestOf f = true := by
    unfold unchanged? at approximated
    exact (Option.filter_eq_some_iff.mp approximated).2
  unfold isShortestOf at shortest
  unfold Float64.written
  by_cases zero : f.mantissa = 0
  · left
    rw [if_pos zero] at shortest ⊢
    have none : d.coefficient = 0 := by simpa using shortest
    simp [value, signed, none]
  · rw [if_neg zero] at shortest ⊢
    have same : (scaled (f.shortest .greater).1 10 (f.shortest .greater).2).value = d.size.value :=
      (Fraction.same_iff (scaled_den_pos _ (by decide) _) (scaled_den_pos _ (by decide) _)).mp
        shortest
    rw [value_scaled] at same
    have exact : d.value =
        d.signed ((f.shortest .greater).1 * 10 ^ (f.shortest .greater).2) := by
      rw [value_eq_signed, ← same]
      rfl
    rcases shortest_cases f with noTie | ⟨q, unit, greater, even, isEven, between⟩
    · left
      rw [noTie, exact]
    · right
      refine ⟨f, q, unit, approximated, greater, even, isEven, between, ?_, ?_⟩
      · rw [exact, greater]
        push_cast
        rfl
      · rw [even]

/-- What the text of a decimal says. -/
theorem data_toJson (d : Decimal) :
    d.toJson.data = d.unchanged?.elim (.string d.text) fun f => .number (d.signed f.written) := by
  unfold toJson
  cases d.unchanged? with
  | none => rfl
  | some f => simp [Json.data, signed]

end Decimal

/-! ## Values -/

namespace Value

mutual

/-- The decimals in a value. -/
def decimals : Value → List Decimal
  | .decimal d => [d]
  | .sequence items => itemsDecimals items
  | .mapping entries => entriesDecimals entries
  | _ => []

def itemsDecimals : List Value → List Decimal
  | [] => []
  | item :: rest => decimals item ++ itemsDecimals rest

def entriesDecimals : List (String × Value) → List Decimal
  | [] => []
  | (_, item) :: rest => decimals item ++ entriesDecimals rest

end

section

variable (allowed : Decimal → ℚ → Prop)

mutual

/-- The data are those of the value: nested in the same way, with the same items and keys in the
same order, strings and truth values. An integer is a number if it fits into a signed word of 64
bits, and a string of its digits otherwise; a decimal is a number that is allowed for it, or the
string of its text. -/
def Carried : Value → Json.Data → Prop
  | .string s, .string t => t = s
  | .integer n, .number x => Integer.fitsWord n = true ∧ x = n
  | .integer n, .string t => Integer.fitsWord n = false ∧ t = Integer.text n
  | .decimal d, .number x => allowed d x
  | .decimal d, .string t => t = d.text
  | .boolean b, .bool c => c = b
  | .sequence items, .array data => CarriedItems items data
  | .mapping entries, .object data => CarriedEntries entries data
  | _, _ => False

def CarriedItems : List Value → List Json.Data → Prop
  | [], [] => True
  | item :: items, first :: data => Carried item first ∧ CarriedItems items data
  | _, _ => False

def CarriedEntries : List (String × Value) → List (String × Json.Data) → Prop
  | [], [] => True
  | (key, item) :: entries, (name, first) :: data =>
      name = key ∧ Carried item first ∧ CarriedEntries entries data
  | _, _ => False

end

theorem carried_integer (n : Int) : Carried allowed (.integer n) (Integer.toJson n).data := by
  unfold Integer.toJson
  split
  · rename_i fits
    exact ⟨fits, rfl⟩
  · rename_i exceeds
    exact ⟨Bool.eq_false_iff.mpr exceeds, rfl⟩

theorem carried_decimal_iff (d : Decimal) :
    Carried allowed (.decimal d) d.toJson.data ↔
      ∀ f, d.unchanged? = some f → allowed d (d.signed f.written) := by
  rw [Decimal.data_toJson]
  cases approximated : d.unchanged? with
  | none =>
    simp only [Option.elim_none, reduceCtorEq, false_implies, implies_true, iff_true]
    rfl
  | some f => simp [Carried]

mutual

/-- Everything but the decimals is carried over whatever they are. -/
theorem carried_iff : (v : Value) →
    (Carried allowed v v.toJson.data ↔
      ∀ d ∈ v.decimals, ∀ f, d.unchanged? = some f → allowed d (d.signed f.written))
  | .string s => by simp [toJson, Json.data, Carried, decimals]
  | .integer n => by
      have carried := carried_integer allowed n
      simp [toJson, carried, decimals]
  | .decimal d => by
      rw [toJson, carried_decimal_iff]
      simp [decimals]
  | .boolean b => by simp [toJson, Json.data, Carried, decimals]
  | .sequence items => by
      rw [toJson, Json.data, Carried, decimals]
      exact carriedItems_iff items
  | .mapping entries => by
      rw [toJson, Json.data, Carried, decimals]
      exact carriedEntries_iff entries

theorem carriedItems_iff : (items : List Value) →
    (CarriedItems allowed items (Json.itemsData (itemsToJson items)) ↔
      ∀ d ∈ itemsDecimals items, ∀ f, d.unchanged? = some f → allowed d (d.signed f.written))
  | [] => by simp [itemsToJson, Json.itemsData, CarriedItems, itemsDecimals]
  | item :: rest => by
      rw [itemsToJson, Json.itemsData, CarriedItems, itemsDecimals, carried_iff item,
        carriedItems_iff rest, List.forall_mem_append]

theorem carriedEntries_iff : (entries : List (String × Value)) →
    (CarriedEntries allowed entries (Json.membersData (entriesToJson entries)) ↔
      ∀ d ∈ entriesDecimals entries, ∀ f, d.unchanged? = some f → allowed d (d.signed f.written))
  | [] => by simp [entriesToJson, Json.membersData, CarriedEntries, entriesDecimals]
  | (key, item) :: rest => by
      rw [entriesToJson, Json.membersData, CarriedEntries, entriesDecimals, carried_iff item,
        carriedEntries_iff rest, List.forall_mem_append]
      exact and_iff_right rfl

end

end

/-- **Serialization loses nothing but ties.** The compact text of every value is one JSON text, and
what it says is the value, where a decimal is itself or displaced. It is the value with every
decimal itself if and only if no decimal in it is displaced. -/
theorem read?_toJson (v : Value) :
    ∃ data, Json.read? v.toJson.text = some data ∧
      v.Carried (fun d x => x = d.value ∨ d.Displaced x) data ∧
      (v.Carried (fun d x => x = d.value) data ↔ ∀ d ∈ v.decimals, ∀ x, ¬ d.Displaced x) := by
  refine ⟨v.toJson.data, Json.read?_text v.toJson, ?_, ?_⟩
  · rw [carried_iff]
    intro d _ f approximated
    exact Decimal.written_cases approximated
  · rw [carried_iff]
    constructor
    · intro same d member x displaced
      obtain ⟨f, approximated, rfl⟩ := displaced.exists_written
      exact displaced.ne (same d member f approximated)
    · intro noTie d member f approximated
      rcases Decimal.written_cases approximated with exact | displaced
      · exact exact
      · exact absurd displaced (noTie d member _)

/-- A decimal that is not carried over: `209630842023366.63` and `209630842023366.62` are equally
near to the number that is taken for the first, and the second is written. -/
theorem read?_toJson_tie :
    ¬ ∀ v : Value, ∃ data, Json.read? v.toJson.text = some data ∧
      v.Carried (fun d x => x = d.value) data := by
  intro all
  obtain ⟨data, read, carried⟩ := all (.decimal ⟨20963084202336663, 2⟩)
  rw [Json.read?_text] at read
  obtain rfl := Option.some.inj read
  have approximated : Decimal.unchanged? ⟨20963084202336663, 2⟩ =
      some ⟨6708186944747732, -5⟩ := by decide +kernel
  have shortest : Float64.shortest .even ⟨6708186944747732, -5⟩ = (20963084202336662, -2) := by
    decide +kernel
  have same := (carried_iff _ _).mp carried _ List.mem_cons_self _ approximated
  rw [Float64.written, if_neg (by decide), shortest] at same
  norm_num [Decimal.signed, Decimal.value] at same

end Value

end EntityFlow
