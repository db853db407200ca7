/-!
# Ordered maps

Maps from strings that keep the order in which their keys were first put. Putting a key again
changes its value and not its place: `value?_put` and `keys_put` say what a put does to the values
and to the order.
-/

namespace EntityFlow

/-- The entries of a map in their order. -/
abbrev OrderedMap (α : Type) := List (String × α)

namespace OrderedMap

variable {α β : Type}

/-- The map without entries. -/
def empty : OrderedMap α := []

/-- Gives a key a value. A new key goes to the end. -/
def put (m : OrderedMap α) (key : String) (value : α) : OrderedMap α :=
  match m with
  | [] => [(key, value)]
  | (k, v) :: rest => if k = key then (k, value) :: rest else (k, v) :: put rest key value

/-- The value of a key. -/
def value? (m : OrderedMap α) (key : String) : Option α :=
  match m with
  | [] => none
  | (k, v) :: rest => if k = key then some v else value? rest key

/-- The keys in order. -/
def keys (m : OrderedMap α) : List String := m.map (·.1)

/-- The map with every value changed. -/
def mapValues (change : α → β) (m : OrderedMap α) : OrderedMap β := m.map fun (k, v) => (k, change v)

/-- Puts entries one after the other. -/
def ofEntries (entries : List (String × α)) : OrderedMap α :=
  entries.foldl (fun m entry => put m entry.1 entry.2) empty

/-! ## Values and keys after a change -/

@[simp] theorem keys_empty : (empty : OrderedMap α).keys = [] := rfl

/-- A put gives its key the value and leaves every other key alone. -/
theorem value?_put (m : OrderedMap α) (key other : String) (value : α) :
    (m.put key value).value? other = if other = key then some value else m.value? other := by
  induction m with
  | nil => grind [put, value?]
  | cons entry rest ih => grind [put, value?]

@[simp] theorem value?_put_self (m : OrderedMap α) (key : String) (value : α) :
    (m.put key value).value? key = some value := by
  simp [value?_put]

/-- A put keeps the keys in their order and adds a new one at the end. -/
theorem keys_put (m : OrderedMap α) (key : String) (value : α) :
    (m.put key value).keys = if key ∈ m.keys then m.keys else m.keys ++ [key] := by
  induction m with
  | nil => simp [put, keys]
  | cons entry rest ih =>
    obtain ⟨k, v⟩ := entry
    by_cases hk : k = key
    · simp [put, keys, hk]
    · simp only [keys] at ih
      by_cases hr : key ∈ rest.map (·.1) <;> simp_all [put, keys, eq_comm]

/-- A change of values keeps the keys. -/
@[simp] theorem keys_mapValues (change : α → β) (m : OrderedMap α) :
    (m.mapValues change).keys = m.keys := by
  simp [keys, mapValues, Function.comp_def]

end OrderedMap

end EntityFlow
