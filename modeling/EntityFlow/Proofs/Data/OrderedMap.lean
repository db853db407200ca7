import EntityFlow.Data.OrderedMap
import Mathlib.Data.List.Dedup
import Mathlib.Data.List.Nodup
import Mathlib.Tactic.Tauto

/-!
# Many puts in ordered maps

A key that is put again keeps its place, so a place can be reserved with any value and filled
later. `OrderedMap.putAll_reserved` says that it does not matter when: putting a value first and
other entries after it is the same as reserving the place, putting the entries and filling the
place at the end, unless one of the entries has taken it.

A map of entries has one place for each key (`OrderedMap.length_ofEntries`), and a key has the value
that was put last (`OrderedMap.value?_ofEntries_last`).
-/

namespace EntityFlow

/-- That an item is the last one with a property. -/
def LastOf {α : Type} (p : α → Prop) (items : List α) (x : α) : Prop :=
  ∃ earlier later, items = earlier ++ x :: later ∧ p x ∧ ∀ y ∈ later, ¬ p y

theorem LastOf.mem {α : Type} {p : α → Prop} {items : List α} {x : α} (last : LastOf p items x) :
    x ∈ items := by
  obtain ⟨earlier, later, rfl, _⟩ := last
  exact List.mem_append_right _ List.mem_cons_self

theorem LastOf.holds {α : Type} {p : α → Prop} {items : List α} {x : α} (last : LastOf p items x) :
    p x := by
  obtain ⟨_, _, _, holds, _⟩ := last
  exact holds

/-- The last item with a property is the last one with any narrower property that it has. -/
theorem LastOf.of_imp {α : Type} {p q : α → Prop} {items : List α} {x : α} (last : LastOf p items x)
    (narrower : ∀ y, q y → p y) (holds : q x) : LastOf q items x := by
  obtain ⟨earlier, later, split, _, others⟩ := last
  refine ⟨earlier, later, split, holds, ?_⟩
  intro y member holdsY
  exact others y member (narrower y holdsY)

theorem LastOf.map {α β : Type} {p : β → Prop} {f : α → β} {items : List α} {x : α}
    (last : LastOf (fun x => p (f x)) items x) : LastOf p (items.map f) (f x) := by
  obtain ⟨earlier, later, rfl, holds, others⟩ := last
  refine ⟨earlier.map f, later.map f, by rw [List.map_append, List.map_cons], holds, ?_⟩
  intro y member
  obtain ⟨z, inLater, rfl⟩ := List.mem_map.mp member
  exact others z inLater

theorem exists_lastOf {α : Type} {p : α → Prop} {items : List α} (some : ∃ x ∈ items, p x) :
    ∃ x, LastOf p items x := by
  induction items with
  | nil =>
      obtain ⟨x, member, _⟩ := some
      cases member
  | cons first rest ih =>
      by_cases later : ∃ x ∈ rest, p x
      · obtain ⟨x, earlier, tail, split, last⟩ := ih later
        exact ⟨x, first :: earlier, tail, by rw [split]; rfl, last⟩
      · obtain ⟨x, member, holds⟩ := some
        rcases List.mem_cons.mp member with rfl | member
        · exact ⟨x, [], rest, rfl, holds, fun y inRest holdsY => later ⟨y, inRest, holdsY⟩⟩
        · exact absurd ⟨x, member, holds⟩ later

end EntityFlow

namespace EntityFlow.OrderedMap

variable {α : Type}

theorem put_put_self (m : OrderedMap α) (key : String) (first second : α) :
    (m.put key first).put key second = m.put key second := by
  induction m with
  | nil => simp [put]
  | cons entry rest ih =>
      obtain ⟨k, v⟩ := entry
      by_cases same : k = key
      · simp [put, same]
      · simp [put, same, ih]

theorem mem_keys_put {m : OrderedMap α} {key other : String} {value : α} :
    other ∈ (m.put key value).keys ↔ other = key ∨ other ∈ m.keys := by
  rw [keys_put]
  split
  · rename_i known
    constructor
    · exact Or.inr
    · rintro (rfl | member)
      · exact known
      · exact member
  · rw [List.mem_append, List.mem_singleton, or_comm]

/-- A new key goes to the end. -/
theorem put_of_not_mem {m : OrderedMap α} {key : String} (free : key ∉ m.keys) (value : α) :
    m.put key value = m ++ [(key, value)] := by
  induction m with
  | nil => rfl
  | cons entry rest ih =>
      obtain ⟨k, v⟩ := entry
      obtain ⟨other, later⟩ : key ≠ k ∧ key ∉ OrderedMap.keys rest := by
        simpa [keys] using free
      rw [put, if_neg (Ne.symm other), ih later, List.cons_append]

/-- Puts of two keys commute if one of them has a place already. -/
theorem put_comm_of_mem {m : OrderedMap α} {key other : String} (known : key ∈ m.keys)
    (different : other ≠ key) (value otherValue : α) :
    (m.put other otherValue).put key value = (m.put key value).put other otherValue := by
  induction m with
  | nil => cases known
  | cons entry rest ih =>
      obtain ⟨k, v⟩ := entry
      by_cases here : k = key
      · subst here
        simp [put, different.symm]
      · have later : key ∈ keys rest := by
          rcases List.mem_cons.mp known with equal | member
          · exact absurd equal.symm here
          · exact member
        by_cases taken : k = other
        · subst taken
          simp [put, different]
        · simp [put, here, taken, ih later]

/-- A value that a key had before its last put leaves nothing but the place of the key. -/
theorem put_put_eq {m : OrderedMap α} {key other : String} (different : other ≠ key)
    (value first otherValue : α) :
    (m.put key value).put other otherValue =
      ((m.put key first).put other otherValue).put key value := by
  rw [put_comm_of_mem (mem_keys_put.mpr (Or.inl rfl)) different, put_put_self]

theorem mem_put {m : OrderedMap α} {key : String} {value : α} {entry : String × α}
    (member : entry ∈ m.put key value) : entry = (key, value) ∨ entry ∈ m := by
  induction m with
  | nil => exact Or.inl (List.mem_singleton.mp member)
  | cons head rest ih =>
      obtain ⟨k, v⟩ := head
      rw [put] at member
      split at member
      · rename_i same
        rcases List.mem_cons.mp member with equal | member
        · exact Or.inl (same ▸ equal)
        · exact Or.inr (List.mem_cons_of_mem _ member)
      · rcases List.mem_cons.mp member with equal | member
        · exact Or.inr (List.mem_cons.mpr (Or.inl equal))
        · exact (ih member).imp_right (List.mem_cons_of_mem _)

/-- A change of all values can be made before or after a put. -/
theorem mapValues_put {β : Type} (change : α → β) (m : OrderedMap α) (key : String) (value : α) :
    (m.put key value).mapValues change = (m.mapValues change).put key (change value) := by
  induction m with
  | nil => rfl
  | cons entry rest ih =>
      obtain ⟨k, v⟩ := entry
      simp only [mapValues, List.map_cons] at ih ⊢
      by_cases same : k = key
      · simp [put, same]
      · simp [put, same, ih]

/-! ## Many puts -/

/-- The map after entries have been put one after the other. -/
def putAll (m : OrderedMap α) (entries : List (String × α)) : OrderedMap α :=
  entries.foldl (fun m entry => m.put entry.1 entry.2) m

@[simp] theorem putAll_nil (m : OrderedMap α) : m.putAll [] = m := rfl

@[simp] theorem putAll_cons (m : OrderedMap α) (entry : String × α) (rest : List (String × α)) :
    m.putAll (entry :: rest) = (m.put entry.1 entry.2).putAll rest := rfl

@[simp] theorem putAll_append (m : OrderedMap α) (first second : List (String × α)) :
    m.putAll (first ++ second) = (m.putAll first).putAll second :=
  List.foldl_append

/-- If a later entry has a key, the value that was put before does not matter. -/
theorem putAll_put_of_mem {key : String} {entries : List (String × α)}
    (taken : key ∈ entries.map (·.1)) (m : OrderedMap α) (first second : α) :
    (m.put key first).putAll entries = (m.put key second).putAll entries := by
  induction entries generalizing m with
  | nil => cases taken
  | cons entry rest ih =>
      obtain ⟨k, v⟩ := entry
      rw [putAll_cons, putAll_cons]
      by_cases here : k = key
      · subst here
        rw [put_put_self, put_put_self]
      · have later : key ∈ rest.map (·.1) := by
          rcases List.mem_cons.mp taken with equal | member
          · exact absurd equal.symm here
          · exact member
        rw [put_put_eq here first second, ih later, ← put_put_eq here]

/-- If no later entry has a key, its value can be put before them or after them. -/
theorem put_putAll_of_not_mem {key : String} {entries : List (String × α)}
    (free : key ∉ entries.map (·.1)) (m : OrderedMap α) (first second : α) :
    ((m.put key first).putAll entries).put key second = (m.put key second).putAll entries := by
  induction entries generalizing m with
  | nil => exact put_put_self m key first second
  | cons entry rest ih =>
      obtain ⟨k, v⟩ := entry
      rw [List.map_cons, List.mem_cons, not_or] at free
      obtain ⟨here, later⟩ := free
      rw [putAll_cons, putAll_cons, put_put_eq (Ne.symm here) first second, ih later,
        ← put_put_eq (Ne.symm here)]

/-- A place can be reserved before other entries and filled after them, unless one of them has taken
it. -/
theorem putAll_reserved (m : OrderedMap α) (key : String) (reserved value : α)
    (entries : List (String × α)) :
    (if key ∈ entries.map (·.1) then (m.put key reserved).putAll entries
      else ((m.put key reserved).putAll entries).put key value) =
      m.putAll ((key, value) :: entries) := by
  split
  · rename_i taken
    exact putAll_put_of_mem taken m reserved value
  · rename_i free
    exact put_putAll_of_not_mem free m reserved value

theorem mem_putAll {m : OrderedMap α} {entries : List (String × α)} {entry : String × α}
    (member : entry ∈ m.putAll entries) : entry ∈ m ∨ entry ∈ entries := by
  induction entries generalizing m with
  | nil => exact Or.inl member
  | cons head rest ih =>
      rcases ih member with earlier | later
      · rcases mem_put earlier with equal | earlier
        · exact Or.inr (List.mem_cons.mpr (Or.inl equal))
        · exact Or.inl earlier
      · exact Or.inr (List.mem_cons_of_mem _ later)

/-- A map of entries holds nothing but entries. -/
theorem mem_ofEntries {entries : List (String × α)} {entry : String × α}
    (member : entry ∈ ofEntries entries) : entry ∈ entries := by
  rcases mem_putAll member with earlier | later
  · cases earlier
  · exact later

/-! ## Keys and values after many puts -/

theorem nodup_keys_put {m : OrderedMap α} (nodup : m.keys.Nodup) (key : String) (value : α) :
    (m.put key value).keys.Nodup := by
  rw [keys_put]
  split
  · exact nodup
  · rename_i free
    refine nodup.append (List.nodup_singleton key) ?_
    simpa [List.disjoint_singleton] using free

theorem nodup_keys_putAll {m : OrderedMap α} (nodup : m.keys.Nodup) (entries : List (String × α)) :
    (m.putAll entries).keys.Nodup := by
  induction entries generalizing m with
  | nil => exact nodup
  | cons entry rest ih => exact ih (nodup_keys_put nodup entry.1 entry.2)

theorem mem_keys_putAll {m : OrderedMap α} {entries : List (String × α)} {key : String} :
    key ∈ (m.putAll entries).keys ↔ key ∈ m.keys ∨ key ∈ entries.map (·.1) := by
  induction entries generalizing m with
  | nil => simp
  | cons entry rest ih =>
      rw [putAll_cons, ih, mem_keys_put, List.map_cons, List.mem_cons]
      tauto

/-- A map of entries has every key of theirs once. -/
theorem nodup_keys_ofEntries (entries : List (String × α)) : (ofEntries entries).keys.Nodup :=
  nodup_keys_putAll (m := empty) List.nodup_nil entries

theorem mem_keys_ofEntries {entries : List (String × α)} {key : String} :
    key ∈ (ofEntries entries).keys ↔ key ∈ entries.map (·.1) := by
  rw [show ofEntries entries = putAll empty entries from rfl, mem_keys_putAll, keys_empty]
  simp

/-- A map of entries has as many entries as these have keys. -/
theorem length_ofEntries (entries : List (String × α)) :
    (ofEntries entries).length = (entries.map (·.1)).dedup.length := by
  have keys : (ofEntries entries).keys.Perm (entries.map (·.1)).dedup := by
    refine (List.perm_ext_iff_of_nodup (nodup_keys_ofEntries entries)
      (List.nodup_dedup _)).mpr fun key => ?_
    rw [List.mem_dedup]
    exact mem_keys_ofEntries
  exact (List.length_map _).symm.trans keys.length_eq

/-- What is put under other keys leaves the value of a key alone. -/
theorem value?_putAll_of_not_mem {m : OrderedMap α} {entries : List (String × α)} {key : String}
    (other : key ∉ entries.map (·.1)) : (m.putAll entries).value? key = m.value? key := by
  induction entries generalizing m with
  | nil => rfl
  | cons entry rest ih =>
      rw [List.map_cons, List.mem_cons, not_or] at other
      rw [putAll_cons, ih other.2, value?_put, if_neg other.1]

/-- The value of a key is the one that was put last. -/
theorem value?_ofEntries_last {earlier later : List (String × α)} {key : String} {value : α}
    (last : key ∉ later.map (·.1)) :
    (ofEntries (earlier ++ (key, value) :: later)).value? key = some value := by
  rw [show ofEntries _ = putAll empty (earlier ++ (key, value) :: later) from rfl, putAll_append,
    putAll_cons, value?_putAll_of_not_mem last, value?_put_self]

/-- A change of all values can be made before or after many puts. -/
theorem mapValues_putAll {β : Type} (change : α → β) (m : OrderedMap α)
    (entries : List (String × α)) :
    (m.putAll entries).mapValues change =
      (m.mapValues change).putAll (entries.map fun entry => (entry.1, change entry.2)) := by
  induction entries generalizing m with
  | nil => rfl
  | cons entry rest ih => rw [putAll_cons, ih, mapValues_put, List.map_cons, putAll_cons]

theorem mapValues_ofEntries {β : Type} (change : α → β) (entries : List (String × α)) :
    (ofEntries entries).mapValues change =
      ofEntries (entries.map fun entry => (entry.1, change entry.2)) :=
  mapValues_putAll change empty entries

theorem value?_mapValues {β : Type} (change : α → β) (m : OrderedMap α) (key : String) :
    (m.mapValues change).value? key = (m.value? key).map change := by
  induction m with
  | nil => rfl
  | cons entry rest ih =>
      obtain ⟨k, v⟩ := entry
      rw [show mapValues change ((k, v) :: rest) = (k, change v) :: mapValues change rest from rfl]
      by_cases same : k = key
      · rw [value?, value?, if_pos same, if_pos same]
        rfl
      · rw [value?, value?, if_neg same, if_neg same, ih]

/-- What a key has is an entry. -/
theorem mem_of_value? {m : OrderedMap α} {key : String} {value : α}
    (known : m.value? key = some value) : (key, value) ∈ m := by
  induction m with
  | nil => cases known
  | cons entry rest ih =>
      obtain ⟨k, v⟩ := entry
      rw [value?] at known
      split at known
      · rename_i same
        rw [same, Option.some.inj known]
        exact List.mem_cons_self
      · exact List.mem_cons_of_mem _ (ih known)

theorem value?_eq_none_iff {m : OrderedMap α} {key : String} :
    m.value? key = none ↔ key ∉ m.keys := by
  induction m with
  | nil => simp [value?, keys]
  | cons entry rest ih =>
      obtain ⟨k, v⟩ := entry
      by_cases same : k = key
      · simp [value?, keys, same]
      · simpa [value?, keys, same, Ne.symm same] using ih

end EntityFlow.OrderedMap
