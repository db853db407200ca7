import EntityFlow.Proofs.Data.OrderedMap
import EntityFlow.Proofs.Text.Bytes
import EntityFlow.Value.Json

/-!
# Values in the order of their keys

The JSON of a value has the members of every object in the order of their keys, whatever order the
entries of its mappings had (`Value.toJson_sorted_canonical`):

* **sorting commutes with serialization**: it is the JSON of the value with the entries of every
  mapping, at any depth, in the order of their keys (`Value.sorted_toJson`);
* **only the entries count**: values that differ in the order of entries only have the same JSON,
  since entries with different keys can be put in order in one way only
  (`Value.inKeyOrder_eq_of_rearranged`).

The order of keys is that of their bytes in UTF-8.
-/

namespace EntityFlow

/-! ## Entries -/

namespace OrderedMap

variable {α : Type}

/-- The entries in the order of the bytes of their keys. -/
def byKey (entries : OrderedMap α) : OrderedMap α :=
  entries.mergeSort fun a b => decide (Text.bytes a.1 ≤ Text.bytes b.1)

theorem perm_byKey (entries : OrderedMap α) : (byKey entries).Perm entries :=
  List.mergeSort_perm entries _

/-- That the keys are in the order of their bytes. -/
def KeysOrdered (entries : OrderedMap α) : Prop :=
  entries.Pairwise fun a b => Text.bytes a.1 ≤ Text.bytes b.1

theorem keysOrdered_byKey (entries : OrderedMap α) : (byKey entries).KeysOrdered := by
  have ordered : (byKey entries).Pairwise fun a b => decide (Text.bytes a.1 ≤ Text.bytes b.1) := by
    refine List.pairwise_mergeSort ?_ ?_ entries
    · intro a b c first second
      exact decide_eq_true (le_trans (of_decide_eq_true first) (of_decide_eq_true second))
    · intro a b
      simpa using le_total (Text.bytes a.1) (Text.bytes b.1)
  exact ordered.imp of_decide_eq_true

/-- Entries that are in the order of their keys are determined by what they are, whatever order they
had before, if no key has two of them. -/
theorem byKey_eq_of_perm {entries others : OrderedMap α} (distinct : entries.keys.Nodup)
    (perm : entries.Perm others) : byKey entries = byKey others := by
  have same : (byKey entries).Perm (byKey others) :=
    (perm_byKey entries).trans (perm.trans (perm_byKey others).symm)
  refine same.eq_of_pairwise ?_ (keysOrdered_byKey entries) (keysOrdered_byKey others)
  -- entries with one key are one entry
  intro a b inEntries inOthers le ge
  have known : a ∈ entries := (perm_byKey entries).mem_iff.mp inEntries
  have known' : b ∈ entries := perm.mem_iff.mpr ((perm_byKey others).mem_iff.mp inOthers)
  have sameKey : a.1 = b.1 :=
    le_antisymm (Text.bytes_le_bytes_iff.mp le) (Text.bytes_le_bytes_iff.mp ge)
  exact List.inj_on_of_nodup_map distinct known known' sameKey

end OrderedMap

namespace Value

/-! ## Mappings at every depth -/

mutual

/-- `v.Everywhere p`: the entries of every mapping in `v`, at any depth, have the property `p`. -/
def Everywhere (p : OrderedMap Value → Prop) : Value → Prop
  | .sequence items => EverywhereItems p items
  | .mapping entries => p entries ∧ EverywhereEntries p entries
  | _ => True

/-- Every item has the property everywhere. -/
def EverywhereItems (p : OrderedMap Value → Prop) : List Value → Prop
  | [] => True
  | item :: rest => Everywhere p item ∧ EverywhereItems p rest

/-- The value of every entry has the property everywhere. -/
def EverywhereEntries (p : OrderedMap Value → Prop) : List (String × Value) → Prop
  | [] => True
  | (_, item) :: rest => Everywhere p item ∧ EverywhereEntries p rest

end

theorem everywhereEntries_iff {p : OrderedMap Value → Prop} {entries : List (String × Value)} :
    EverywhereEntries p entries ↔ ∀ entry ∈ entries, Everywhere p entry.2 := by
  induction entries with
  | nil => simp [EverywhereEntries]
  | cons entry rest ih =>
      obtain ⟨key, item⟩ := entry
      rw [EverywhereEntries, ih, List.forall_mem_cons]

/-- That no key of a mapping, at any depth, has two entries. -/
def DistinctKeys (v : Value) : Prop := v.Everywhere fun entries => entries.keys.Nodup

mutual

/-- `v.Rearranged w`: the two values differ in nothing but the order of entries, in mappings at any
depth. -/
def Rearranged : Value → Value → Prop
  | .sequence items, .sequence others => RearrangedItems items others
  | .mapping entries, .mapping others =>
      ∃ inOrder, RearrangedEntries entries inOrder ∧ inOrder.Perm others
  | v, w => v = w

/-- The items differ one by one in nothing else. -/
def RearrangedItems : List Value → List Value → Prop
  | [], [] => True
  | item :: items, other :: others => Rearranged item other ∧ RearrangedItems items others
  | _, _ => False

/-- The entries have the same keys one by one, and their values differ in nothing else. -/
def RearrangedEntries : List (String × Value) → List (String × Value) → Prop
  | [], [] => True
  | (key, item) :: entries, (key', other) :: others =>
      key = key' ∧ Rearranged item other ∧ RearrangedEntries entries others
  | _, _ => False

end

mutual

/-- The value with the entries of every mapping, at any depth, in the order of the bytes of their
keys. -/
def inKeyOrder : Value → Value
  | .sequence items => .sequence (itemsInKeyOrder items)
  | .mapping entries => .mapping (OrderedMap.byKey (entriesInKeyOrder entries))
  | other => other

/-- Every item in the order of its keys. -/
def itemsInKeyOrder : List Value → List Value
  | [] => []
  | item :: rest => inKeyOrder item :: itemsInKeyOrder rest

/-- The value of every entry in the order of its keys; the entries themselves stay in theirs. -/
def entriesInKeyOrder : List (String × Value) → List (String × Value)
  | [] => []
  | (key, item) :: rest => (key, inKeyOrder item) :: entriesInKeyOrder rest

end

theorem entriesInKeyOrder_eq_mapValues (entries : OrderedMap Value) :
    entriesInKeyOrder entries = entries.mapValues inKeyOrder := by
  induction entries with
  | nil => rfl
  | cons entry rest ih =>
      obtain ⟨key, item⟩ := entry
      rw [entriesInKeyOrder, ih]
      rfl

/-! ## Sorting and serializing -/

theorem entriesToJson_eq_map (entries : List (String × Value)) :
    entriesToJson entries = OrderedMap.mapValues toJson entries := by
  induction entries with
  | nil => rfl
  | cons entry rest ih =>
      obtain ⟨key, item⟩ := entry
      rw [entriesToJson, ih]
      rfl

/-- Members are sorted by their keys, which serialization keeps. -/
theorem sortMembers_entriesToJson (entries : OrderedMap Value) :
    Json.sortMembers (entriesToJson entries) = entriesToJson (OrderedMap.byKey entries) := by
  rw [entriesToJson_eq_map, entriesToJson_eq_map, OrderedMap.mapValues, OrderedMap.mapValues,
    OrderedMap.byKey, List.map_mergeSort]
  · rfl
  · intro a _ b _
    simp only [Text.bytes_le_bytes_iff]

theorem sorted_integer (n : Int) : (Integer.toJson n).sorted = Integer.toJson n := by
  unfold Integer.toJson
  split <;> rfl

theorem sorted_decimal (d : Decimal) : d.toJson.sorted = d.toJson := by
  unfold Decimal.toJson
  cases d.unchanged? <;> rfl

mutual

/-- Sorting commutes with serialization. -/
theorem sorted_toJson : (v : Value) → v.toJson.sorted = v.inKeyOrder.toJson
  | .string s => rfl
  | .integer n => sorted_integer n
  | .decimal d => sorted_decimal d
  | .boolean b => rfl
  | .sequence items => by
      rw [toJson, Json.sorted, sortedItems_itemsToJson items, inKeyOrder, toJson]
  | .mapping entries => by
      rw [toJson, Json.sorted, sortedMembers_entriesToJson entries, sortMembers_entriesToJson,
        inKeyOrder, toJson]

theorem sortedItems_itemsToJson : (items : List Value) →
    Json.sortedItems (itemsToJson items) = itemsToJson (itemsInKeyOrder items)
  | [] => rfl
  | item :: rest => by
      rw [itemsToJson, Json.sortedItems, sorted_toJson item, sortedItems_itemsToJson rest,
        itemsInKeyOrder, itemsToJson]

theorem sortedMembers_entriesToJson : (entries : List (String × Value)) →
    Json.sortedMembers (entriesToJson entries) = entriesToJson (entriesInKeyOrder entries)
  | [] => rfl
  | (key, item) :: rest => by
      rw [entriesToJson, Json.sortedMembers, sorted_toJson item,
        sortedMembers_entriesToJson rest, entriesInKeyOrder, entriesToJson]

end

/-! ## Rearranging and sorting -/

mutual

theorem rearranged_inKeyOrder : (v : Value) → v.Rearranged v.inKeyOrder
  | .string s => rfl
  | .integer n => rfl
  | .decimal d => rfl
  | .boolean b => rfl
  | .sequence items => by
      rw [inKeyOrder, Rearranged]
      exact rearrangedItems_inKeyOrder items
  | .mapping entries => by
      rw [inKeyOrder, Rearranged]
      exact ⟨_, rearrangedEntries_inKeyOrder entries, (OrderedMap.perm_byKey _).symm⟩

theorem rearrangedItems_inKeyOrder : (items : List Value) →
    RearrangedItems items (itemsInKeyOrder items)
  | [] => trivial
  | item :: rest => ⟨rearranged_inKeyOrder item, rearrangedItems_inKeyOrder rest⟩

theorem rearrangedEntries_inKeyOrder : (entries : List (String × Value)) →
    RearrangedEntries entries (entriesInKeyOrder entries)
  | [] => trivial
  | (_, item) :: rest => ⟨rfl, rearranged_inKeyOrder item, rearrangedEntries_inKeyOrder rest⟩

end

mutual

theorem keysOrdered_inKeyOrder : (v : Value) → v.inKeyOrder.Everywhere OrderedMap.KeysOrdered
  | .string s => trivial
  | .integer n => trivial
  | .decimal d => trivial
  | .boolean b => trivial
  | .sequence items => by
      rw [inKeyOrder, Everywhere]
      exact keysOrdered_itemsInKeyOrder items
  | .mapping entries => by
      rw [inKeyOrder, Everywhere]
      refine ⟨OrderedMap.keysOrdered_byKey _, ?_⟩
      have each := everywhereEntries_iff.mp (keysOrdered_entriesInKeyOrder entries)
      rw [everywhereEntries_iff]
      intro entry member
      exact each entry ((OrderedMap.perm_byKey _).mem_iff.mp member)

theorem keysOrdered_itemsInKeyOrder : (items : List Value) →
    EverywhereItems OrderedMap.KeysOrdered (itemsInKeyOrder items)
  | [] => trivial
  | item :: rest => ⟨keysOrdered_inKeyOrder item, keysOrdered_itemsInKeyOrder rest⟩

theorem keysOrdered_entriesInKeyOrder : (entries : List (String × Value)) →
    EverywhereEntries OrderedMap.KeysOrdered (entriesInKeyOrder entries)
  | [] => trivial
  | (_, item) :: rest => ⟨keysOrdered_inKeyOrder item, keysOrdered_entriesInKeyOrder rest⟩

end

mutual

/-- Values that differ in the order of entries only are the same in the order of their keys. -/
theorem inKeyOrder_eq_of_rearranged : (v w : Value) → v.DistinctKeys → v.Rearranged w →
    v.inKeyOrder = w.inKeyOrder
  | .string s, _, _, same => congrArg inKeyOrder same
  | .integer n, _, _, same => congrArg inKeyOrder same
  | .decimal d, _, _, same => congrArg inKeyOrder same
  | .boolean b, _, _, same => congrArg inKeyOrder same
  | .sequence items, w, distinct, rearranged => by
      cases w with
      | sequence others =>
          rw [inKeyOrder, inKeyOrder,
            itemsInKeyOrder_eq_of_rearranged items others distinct rearranged]
      | _ => cases rearranged
  | .mapping entries, w, ⟨distinct, inside⟩, rearranged => by
      cases w with
      | mapping others =>
          -- the values are put in order first, and then the entries, whose keys are the same
          obtain ⟨inOrder, each, perm⟩ := rearranged
          have same := entriesInKeyOrder_eq_of_rearranged entries inOrder inside each
          have nodup : (OrderedMap.keys (entriesInKeyOrder inOrder)).Nodup := by
            rw [← same, entriesInKeyOrder_eq_mapValues, OrderedMap.keys_mapValues]
            exact distinct
          have perm' : (entriesInKeyOrder inOrder).Perm (entriesInKeyOrder others) := by
            rw [entriesInKeyOrder_eq_mapValues, entriesInKeyOrder_eq_mapValues]
            exact perm.map _
          rw [inKeyOrder, inKeyOrder, same, OrderedMap.byKey_eq_of_perm nodup perm']
      | _ => cases rearranged

theorem itemsInKeyOrder_eq_of_rearranged : (items others : List Value) →
    EverywhereItems (fun entries => entries.keys.Nodup) items → RearrangedItems items others →
    itemsInKeyOrder items = itemsInKeyOrder others
  | [], [], _, _ => rfl
  | item :: rest, other :: others, ⟨distinct, distinctRest⟩, ⟨first, later⟩ => by
      rw [itemsInKeyOrder, itemsInKeyOrder, inKeyOrder_eq_of_rearranged item other distinct first,
        itemsInKeyOrder_eq_of_rearranged rest others distinctRest later]

theorem entriesInKeyOrder_eq_of_rearranged : (entries others : List (String × Value)) →
    EverywhereEntries (fun entries => entries.keys.Nodup) entries →
    RearrangedEntries entries others → entriesInKeyOrder entries = entriesInKeyOrder others
  | [], [], _, _ => rfl
  | (key, item) :: rest, (_, other) :: others, ⟨distinct, distinctRest⟩, ⟨rfl, first, later⟩ => by
      rw [entriesInKeyOrder, entriesInKeyOrder,
        inKeyOrder_eq_of_rearranged item other distinct first,
        entriesInKeyOrder_eq_of_rearranged rest others distinctRest later]

end

/-- **The JSON of a value is canonical in the order of keys.** It is the text of the value whose
mappings, at any depth, have their entries in the order of the bytes of their keys; and values that
differ in nothing but the order of entries have the same text. No key of a mapping has two entries,
as in every ordered map that is built by putting. -/
theorem toJson_sorted_canonical :
    (∀ v : Value, v.Rearranged v.inKeyOrder ∧ v.inKeyOrder.Everywhere OrderedMap.KeysOrdered ∧
      v.toJson.sorted.text = v.inKeyOrder.toJson.text) ∧
    ∀ v w : Value, v.DistinctKeys → v.Rearranged w →
      v.toJson.sorted.text = w.toJson.sorted.text := by
  refine ⟨?_, ?_⟩
  · intro v
    exact ⟨rearranged_inKeyOrder v, keysOrdered_inKeyOrder v, congrArg Json.text (sorted_toJson v)⟩
  · intro v w distinct rearranged
    rw [sorted_toJson, sorted_toJson, inKeyOrder_eq_of_rearranged v w distinct rearranged]

/-- A mapping in a sequence in a mapping, both of them turned round. -/
theorem toJson_sorted_turned :
    let inner := [("b", boolean true), ("a", boolean false)]
    let v := mapping [("ß", .integer 1), ("z", .sequence [.mapping inner])]
    let w := mapping [("z", .sequence [.mapping inner.reverse]), ("ß", .integer 1)]
    v.DistinctKeys ∧ v.Rearranged w ∧ v ≠ w ∧ v.toJson.sorted.text = w.toJson.sorted.text := by
  intro inner v w
  have distinct : v.DistinctKeys :=
    ⟨by decide, trivial, ⟨⟨by decide, trivial, trivial, trivial⟩, trivial⟩, trivial⟩
  have rearranged : v.Rearranged w :=
    ⟨[("ß", .integer 1), ("z", .sequence [.mapping inner.reverse])],
      ⟨rfl, rfl, rfl, ⟨⟨inner, ⟨rfl, rfl, rfl, rfl, trivial⟩, inner.reverse_perm.symm⟩, trivial⟩,
        trivial⟩, .swap _ _ _⟩
  refine ⟨distinct, rearranged, ?_, toJson_sorted_canonical.2 v w distinct rearranged⟩
  simp [v, w]

end Value

end EntityFlow
