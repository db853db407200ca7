import EntityFlow.Proofs.Document.FlowRecords
import EntityFlow.Proofs.Document.Origins
import EntityFlow.Proofs.Value.Paths

/-!
# Looking records up by their paths

The path of an address leads through a document, one key after the other. Where no key is empty and
none has a dot in it, it leads to the record that the document has under the address
(`EntityDocument.lookup?_path`, `FlowDocument.lookup?_path`), and with `.name` behind it to the name
of this record, unless that is a relationship.

The path of a relationship whose key has dots leads elsewhere: through a relationship whose key is
the part in front of the first dot, if there is one, to a part of its record.
-/

namespace EntityFlow

/-! ## Items under their own keys -/

/-- A map of items under their own keys has under a key the last item with this key. -/
theorem OrderedMap.value?_ofEntries_eq_some_iff {α : Type} {key : α → String} {items : List α}
    {k : String} {x : α} :
    (ofEntries (items.map fun x => (key x, x))).value? k = some x ↔
      LastOf (key · = k) items x := by
  have found {y : α} (last : LastOf (key · = k) items y) :
      (ofEntries (items.map fun x => (key x, x))).value? k = some y := by
    obtain ⟨earlier, later, rfl, rfl, others⟩ := last
    rw [List.map_append, List.map_cons]
    refine value?_ofEntries_last ?_
    rw [List.map_map]
    intro member
    obtain ⟨z, inLater, same⟩ := List.mem_map.mp member
    exact others z inLater same
  refine ⟨fun known => ?_, found⟩
  -- some item has the key, so there is a last one, and that is what is found
  have member := mem_ofEntries (mem_of_value? known)
  obtain ⟨y, inItems, same⟩ := List.mem_map.mp member
  obtain ⟨z, last⟩ := exists_lastOf (p := (key · = k)) ⟨y, inItems, (Prod.mk.inj same).1⟩
  cases known.symm.trans (found last)
  exact last

/-! ## Paths of addresses -/

namespace Address

/-- The language whose documents have an address. -/
def language : Address → Language
  | .entity _ _ | .enum _ | .service _ | .method _ _ | .relationship _ _ => .entity
  | .flow _ | .system _ _ | .start _ _ => .flow

theorem names_subset_keys (a : Address) : a.names ⊆ a.keys := by
  cases a <;> simp [names, keys, container, key]

/-- That every key of an address is one segment of a path. -/
def Plain (a : Address) : Prop := ∀ key ∈ a.keys, Value.IsSegment key

theorem Plain.segments_path {a : Address} (plain : a.Plain) :
    Value.segments a.path = a.keys.map String.toList := by
  have undotted : a.Undotted := fun name member => (plain name (a.names_subset_keys member)).2
  have last : Value.IsSegment a.key := plain a.key (by simp [keys])
  rw [Value.segments, splitAtChar_path undotted, Text.splitAtChar_of_not_mem last.2,
    ← List.map_singleton, ← List.map_append]
  -- no key is empty, so none is dropped
  refine List.filter_eq_self.mpr ?_
  intro piece member
  obtain ⟨key, isKey, rfl⟩ := List.mem_map.mp member
  simpa [String.toList_eq_nil_iff] using (plain key isKey).1

end Address

/-- The path of an address leads along its keys. -/
theorem Value.lookup?_path (v : Value) {a : Address} (plain : a.Plain) :
    v.lookup? a.path = a.keys.foldlM (fun v key => v.step? key.toList) v := by
  rw [lookup?, plain.segments_path, List.foldlM_map]

/-- An address other than that of a relationship is plain if its names are segments. -/
theorem Address.plain_of_names {a : Address} (names : ∀ name ∈ a.names, Value.IsSegment name)
    (other : a.isRelationship = false) : a.Plain := by
  intro key isKey
  have among : key ∈ fixedKeys ++ a.names := by
    rcases List.mem_append.mp isKey with inner | last
    · exact a.container_subset inner
    · rw [List.mem_singleton.mp last]
      exact List.mem_append_right _ (key_mem_names other)
  rcases List.mem_append.mp among with fixed | name
  · have segments : ∀ key ∈ fixedKeys, Value.IsSegment key := by decide
    exact segments key fixed
  · exact names key name

theorem Address.plain_relationship {kind key : String} (isKind : Value.IsSegment kind)
    (isKey : Value.IsSegment key) : (relationship kind key).Plain := by
  intro k isPart
  have parts : k = "relationships" ∨ k = kind ∨ k = key := by
    simpa [keys, container, Address.key] using isPart
  rcases parts with rfl | rfl | rfl
  · decide
  · exact isKind
  · exact isKey

/-! ## Records in mappings -/

/-- That a step from a mapping leads to the value of a key. -/
def Value.Follows (step : Value → String → Option Value) : Prop :=
  ∀ (m : OrderedMap Value) key, step (.mapping m) key = m.value? key

namespace Value.Follows

variable {step : Value → String → Option Value} {v : Value} {R S : Type} {records : OrderedMap R}
  {toValue : R → Value} {parts : R → OrderedMap S} {toValue' : S → Value}

theorem get? : Follows Value.get? := fun _ _ => rfl

theorem step? : Follows fun v key => v.step? key.toList := step?_mapping

theorem mapValues (follows : Follows step) (key : String) :
    step (.mapping (records.mapValues toValue)) key = (records.value? key).map toValue := by
  rw [follows, OrderedMap.value?_mapValues]

/-- The keys of a record. -/
theorem foldlM_record (follows : Follows step) {part : String}
    (found : step v part = some (.mapping (records.mapValues toValue))) (key : String) :
    [part, key].foldlM step v = (records.value? key).map toValue := by
  rw [List.foldlM_cons, found]
  simp [follows.mapValues]

/-- The keys of a record inside another one. -/
theorem foldlM_inner (follows : Follows step) {part inner : String}
    (found : step v part = some (.mapping (records.mapValues toValue)))
    (inside : ∀ r, step (toValue r) inner = some (.mapping ((parts r).mapValues toValue')))
    (owner key : String) :
    [part, owner, inner, key].foldlM step v =
      (records.value? owner).bind fun r => ((parts r).value? key).map toValue' := by
  have front := follows.foldlM_record found owner
  rw [show [part, owner, inner, key] = [part, owner] ++ [inner, key] from rfl, List.foldlM_append,
    front]
  cases records.value? owner with
  | none => rfl
  | some r => exact follows.foldlM_record (inside r) key

end Value.Follows

/-- That a value is a record with a name. -/
def Value.IsNamed (v : Value) : Prop :=
  ∃ name rest, v = .mapping (("name", .string name) :: rest)

/-- Behind the path of named records there is a name if and only if there is a record. -/
theorem Value.isSome_lookup?_name {v : Value} {path : String}
    (named : ∀ record, v.lookup? path = some record → record.IsNamed) :
    (v.lookup? (path ++ ".name")).isSome = (v.lookup? path).isSome := by
  rw [show path ++ ".name" = path ++ "." ++ "name" by rw [String.append_assoc]; rfl,
    lookup?_append]
  cases known : v.lookup? path with
  | none => rfl
  | some record =>
      -- the name is the first entry
      obtain ⟨name, rest, rfl⟩ := named record known
      rw [Option.bind_some, lookup?_mapping _ (by decide)]
      rfl

/-! ## Records of the entity language -/

theorem Service.get?_methods (s : Service) :
    s.toValue.get? "methods" = some (.mapping (s.methods.mapValues Method.toValue)) := by
  obtain ⟨_, _, documentation, _⟩ := s
  cases documentation <;> rfl

namespace EntityDocument

variable {d : EntityDocument} {a : Address}

/-- The value that a document has under an address. -/
def record? (d : EntityDocument) : Address → Option Value
  | .entity part name => ((d.entitiesOf part).value? name).map Entity.toValue
  | .enum name => (d.enums.value? name).map Enum.toValue
  | .service name => (d.services.value? name).map Service.toValue
  | .method owner name =>
      (d.services.value? owner).bind fun s => (s.methods.value? name).map Method.toValue
  | .relationship kind key => ((d.relationshipsOf kind).value? key).map Relationship.toValue
  | .flow _ | .system _ _ | .start _ _ => none

/-- However the keys of an address are followed, they lead to its record. -/
theorem foldlM_keys (d : EntityDocument) (inLanguage : a.language = .entity)
    {step : Value → String → Option Value} (follows : Value.Follows step) :
    a.keys.foldlM step d.toValue = d.record? a := by
  have top (key : String) : step d.toValue key = d.toValue.get? key := follows _ key
  have inService (s : Service) (key : String) : step s.toValue key = s.toValue.get? key :=
    follows _ key
  cases a with
  | entity part name => exact follows.foldlM_record ((top _).trans (d.get?_toValue part)) name
  | enum name => exact follows.foldlM_record ((top _).trans d.get?_enums) name
  | service name => exact follows.foldlM_record ((top _).trans d.get?_services) name
  | method owner name =>
      exact follows.foldlM_inner ((top _).trans d.get?_services)
        (fun s => (inService s _).trans s.get?_methods) owner name
  | relationship kind key =>
      have front := follows.foldlM_record ((top _).trans d.get?_relationships) kind
      rw [show (Address.relationship kind key).keys = ["relationships", kind] ++ [key] from rfl,
        List.foldlM_append, front, record?, relationshipsOf]
      -- a kind without relationships has no mapping, and an empty one would give the same
      cases d.relationships.value? kind with
      | none => rfl
      | some partition => simp [follows.mapValues]
  | _ => cases inLanguage

/-- **The path of an address leads to its record.** -/
theorem lookup?_path (d : EntityDocument) (inLanguage : a.language = .entity) (plain : a.Plain) :
    d.toValue.lookup? a.path = d.record? a := by
  rw [Value.lookup?_path _ plain]
  exact d.foldlM_keys inLanguage .step?

/-- Every record but that of a relationship has a name. -/
theorem isNamed_of_record? {v : Value} (stored : d.record? a = some v)
    (other : a.isRelationship = false) : v.IsNamed := by
  cases a with
  | entity part name =>
      obtain ⟨e, _, rfl⟩ := Option.map_eq_some_iff.mp stored
      exact ⟨e.name, _, rfl⟩
  | enum name =>
      obtain ⟨e, _, rfl⟩ := Option.map_eq_some_iff.mp stored
      exact ⟨e.name, _, rfl⟩
  | service name =>
      obtain ⟨s, _, rfl⟩ := Option.map_eq_some_iff.mp stored
      exact ⟨s.name, _, rfl⟩
  | method owner name =>
      obtain ⟨_, _, inner⟩ := Option.bind_eq_some_iff.mp stored
      obtain ⟨m, _, rfl⟩ := Option.map_eq_some_iff.mp inner
      exact ⟨m.name, _, rfl⟩
  | relationship => cases other
  | _ => cases stored

theorem atKeys?_keys (d : EntityDocument) (inLanguage : a.language = .entity) :
    d.toValue.atKeys? a.keys = d.record? a :=
  d.foldlM_keys inLanguage .get?

end EntityDocument

/-! ## Records of the flow language -/

theorem Flow.get?_systems (f : Flow) :
    f.toValue.get? "systems" = some (.mapping (f.systems.mapValues System.toValue)) := by
  obtain ⟨_, _, documentation, _⟩ := f
  cases documentation <;> rfl

theorem Flow.get?_starts (f : Flow) :
    f.toValue.get? "starts" = some (.mapping (f.starts.mapValues Start.toValue)) := by
  obtain ⟨_, _, documentation, _⟩ := f
  cases documentation <;> rfl

namespace FlowDocument

variable {d : FlowDocument} {a : Address}

/-- The value that a document has under an address. -/
def record? (d : FlowDocument) : Address → Option Value
  | .flow name => (d.flows.value? name).map Flow.toValue
  | .system owner name =>
      (d.flows.value? owner).bind fun f => (f.systems.value? name).map System.toValue
  | .start owner name =>
      (d.flows.value? owner).bind fun f => (f.starts.value? name).map Start.toValue
  | .entity _ _ | .enum _ | .service _ | .method _ _ | .relationship _ _ => none

/-- However the keys of an address are followed, they lead to its record. -/
theorem foldlM_keys (d : FlowDocument) (inLanguage : a.language = .flow)
    {step : Value → String → Option Value} (follows : Value.Follows step) :
    a.keys.foldlM step d.toValue = d.record? a := by
  have top (key : String) : step d.toValue key = d.toValue.get? key := follows _ key
  have inFlow (f : Flow) (key : String) : step f.toValue key = f.toValue.get? key := follows _ key
  cases a with
  | flow name => exact follows.foldlM_record ((top _).trans d.get?_flows) name
  | system owner name =>
      exact follows.foldlM_inner ((top _).trans d.get?_flows)
        (fun f => (inFlow f _).trans f.get?_systems) owner name
  | start owner name =>
      exact follows.foldlM_inner ((top _).trans d.get?_flows)
        (fun f => (inFlow f _).trans f.get?_starts) owner name
  | _ => cases inLanguage

/-- **The path of an address leads to its record.** -/
theorem lookup?_path (d : FlowDocument) (inLanguage : a.language = .flow) (plain : a.Plain) :
    d.toValue.lookup? a.path = d.record? a := by
  rw [Value.lookup?_path _ plain]
  exact d.foldlM_keys inLanguage .step?

/-- Every record has a name. -/
theorem isNamed_of_record? {v : Value} (stored : d.record? a = some v) : v.IsNamed := by
  cases a with
  | flow name =>
      obtain ⟨f, _, rfl⟩ := Option.map_eq_some_iff.mp stored
      exact ⟨f.name, _, rfl⟩
  | system owner name =>
      obtain ⟨_, _, inner⟩ := Option.bind_eq_some_iff.mp stored
      obtain ⟨r, _, rfl⟩ := Option.map_eq_some_iff.mp inner
      exact ⟨r.name, _, rfl⟩
  | start owner name =>
      obtain ⟨_, _, inner⟩ := Option.bind_eq_some_iff.mp stored
      obtain ⟨r, _, rfl⟩ := Option.map_eq_some_iff.mp inner
      exact ⟨r.name, _, rfl⟩
  | _ => cases stored

end FlowDocument

end EntityFlow
