import EntityFlow.Proofs.Document.Sites

/-!
# Records and the places they come from

A record of a document is built from one declaration, and so is the location under its path: the
builder records a place when it opens a declaration and puts the record when it closes it, and
either may be overwritten in between. The two agree all the same. An address has the record of the
last declaration that has this address, in the order of the source with a declaration in front of
those inside it, and its path has the place of that very declaration
(`Model.ofEntityTree_located`).
-/

namespace EntityFlow

/-- The value that some keys lead to, one after the other. -/
def Value.atKeys? (v : Value) (keys : List String) : Option Value := keys.foldlM Value.get? v

theorem Value.atKeys?_cons (v : Value) (key : String) (rest : List String) :
    v.atKeys? (key :: rest) = (v.get? key).bind (·.atKeys? rest) :=
  List.foldlM_cons

theorem Value.atKeys?_singleton (m : OrderedMap Value) (key : String) :
    (Value.mapping m).atKeys? [key] = m.value? key := by
  rw [atKeys?, List.foldlM_cons]
  show (m.value? key).bind (fun v => some v) = m.value? key
  cases m.value? key <;> rfl

/-- Whether an address is that of a record with a place of its own: any but those of methods, which
are parts of their services, and those of the flow language. -/
def Address.isRecord : Address → Bool
  | .entity _ _ | .enum _ | .service _ | .relationship _ _ => true
  | .method _ _ | .flow _ | .system _ _ | .start _ _ => false

/-! ## The records of a container -/

namespace Declaration

/-- The record under its address. -/
def entry (d : Declaration) : Address × Value := (d.site.address, d.record)

/-- The records among some that go to a container, under their last keys. -/
def recordsIn (container : List String) (entries : List (Address × Value)) :
    List (String × Value) :=
  (entries.filter (·.1.container == container)).map fun e => (e.1.key, e.2)

@[simp] theorem recordsIn_nil (container : List String) : recordsIn container [] = [] := rfl

theorem recordsIn_append (container : List String) (first second : List (Address × Value)) :
    recordsIn container (first ++ second) =
      recordsIn container first ++ recordsIn container second := by
  rw [recordsIn, List.filter_append, List.map_append]
  rfl

theorem mem_recordsIn_key {container : List String} {entries : List (Address × Value)}
    {key : String} : key ∈ (recordsIn container entries).map (·.1) ↔
      ∃ e ∈ entries, e.1.keys = container ++ [key] := by
  simp only [recordsIn, List.map_map, List.mem_map, List.mem_filter, beq_iff_eq,
    Function.comp_apply]
  constructor
  · rintro ⟨e, ⟨member, same⟩, rfl⟩
    exact ⟨e, member, by rw [Address.keys, same]⟩
  · rintro ⟨e, member, same⟩
    obtain ⟨containers, keys⟩ := List.append_inj' same rfl
    exact ⟨e, ⟨member, containers⟩, (List.cons.inj keys).1⟩

theorem recordsIn_eq_nil {container : List String} {entries : List (Address × Value)}
    (others : ∀ e ∈ entries, e.1.container ≠ container) : recordsIn container entries = [] := by
  rw [recordsIn, List.map_eq_nil_iff, List.filter_eq_nil_iff]
  intro e member same
  exact others e member (beq_iff_eq.mp same)

/-- Records of one container go there or nowhere. -/
theorem recordsIn_map {α : Type} (address : α → Address) (value : α → Value)
    {container own : List String} (same : ∀ x, (address x).container = own) (items : List α) :
    recordsIn container (items.map fun x => (address x, value x)) =
      (if container = own then items else []).map fun x => ((address x).key, value x) := by
  by_cases here : container = own
  · rw [if_pos here, here, recordsIn, List.filter_eq_self.mpr, List.map_map]
    · rfl
    · intro e member
      obtain ⟨x, _, rfl⟩ := List.mem_map.mp member
      exact beq_iff_eq.mpr (same x)
  · rw [if_neg here]
    refine recordsIn_eq_nil fun e member => ?_
    obtain ⟨x, _, rfl⟩ := List.mem_map.mp member
    rw [same x]
    exact Ne.symm here

/-- A container has under a key the record of the last declaration that has this address. -/
theorem value?_recordsIn_last {ds : List Declaration} {a : Address} {d : Declaration}
    (last : LastOf (·.site.address = a) ds d) :
    (OrderedMap.ofEntries (recordsIn a.container (ds.map entry))).value? a.key =
      some d.record := by
  obtain ⟨earlier, later, rfl, rfl, others⟩ := last
  have own : recordsIn d.site.address.container [d.entry] = [(d.site.address.key, d.record)] := by
    simp [recordsIn, entry]
  rw [List.map_append, List.map_cons, ← List.singleton_append, recordsIn_append,
    recordsIn_append, own, List.singleton_append]
  refine OrderedMap.value?_ofEntries_last ?_
  rw [mem_recordsIn_key]
  rintro ⟨e, member, same⟩
  obtain ⟨other, inLater, rfl⟩ := List.mem_map.mp member
  exact others other inLater (Address.eq_of_keys_eq same)

/-! ## The records of a declaration -/

section Entries

variable {part : Section}

mutual

theorem entry_nestedInField (n : Node) :
    (nestedInField part n).map entry =
      (Entity.embeddedInField n).map fun e => (.entity part e.name, e.toValue) := by
  obtain ⟨k, text, span, parts⟩ := n
  rw [nestedInField, Entity.embeddedInField]
  exact entry_nestedInBody _ parts

theorem entry_nestedInBody (field : Field) (parts : List Node) :
    (nestedInBody part field parts).map entry =
      (Entity.embeddedInBody field parts).map fun e => (.entity part e.name, e.toValue) := by
  match parts with
  | [] => rw [nestedInBody, Entity.embeddedInBody, List.map_nil, List.map_nil]
  | ⟨k, text, span, body⟩ :: rest =>
      by_cases nested : k = .nestedField
      · subst nested
        rw [nestedInBody, Entity.embeddedInBody, List.map_cons, List.map_cons,
          entry_nestedIn body]
        rfl
      · rw [nestedInBody, Entity.embeddedInBody]
        · exact entry_nestedInBody field rest
        · simp [nested]
        · simp [nested]

theorem entry_nestedIn (ns : List Node) :
    (nestedIn part ns).map entry =
      (Entity.embeddedIn ns).map fun e => (.entity part e.name, e.toValue) := by
  match ns with
  | [] => rw [nestedIn, Entity.embeddedIn, List.map_nil, List.map_nil]
  | n :: rest =>
      by_cases isField : n.kind = .field
      · rw [nestedIn_cons_of_field isField, Entity.embeddedIn_cons_of_field isField,
          List.map_append, List.map_append, entry_nestedInField n, entry_nestedIn rest]
      · rw [nestedIn_cons_of_ne isField, Entity.embeddedIn_cons_of_ne isField]
        exact entry_nestedIn rest

end

theorem entry_entity (n : Node) :
    (entity part n).map entry =
      (part.declaration n).map fun e => (.entity part e.name, e.toValue) := by
  rw [entity, Section.declaration]
  cases n.child part.nameKind with
  | none => rfl
  | some name =>
      simp only [List.map_cons]
      rw [entry_nestedIn]
      rfl

theorem entry_enum (n : Node) :
    (enum n).map entry = ((n.child .enumName).map fun name =>
      Enum.ofDeclaration n name.text).toList.map fun e => (.enum e.name, e.toValue) := by
  rw [enum]
  cases n.child .enumName <;> rfl

theorem entry_relationship (kind : String) (n : Node) :
    (relationship kind n).map entry = (EntityBuilder.relationship? kind n).toList.map fun r =>
      (.relationship r.kind r.key, r.toValue) := by
  rw [relationship]
  cases known : EntityBuilder.relationship? kind n with
  | none => rfl
  | some r =>
      have kinds : r.kind = kind := by
        unfold EntityBuilder.relationship? at known
        split at known <;> cases known
        rfl
      rw [Option.toList_some, List.map_singleton, List.map_singleton, kinds]
      rfl

theorem entry_relationships (n : Node) :
    (relationships n).map entry =
      (Relationship.declaredInBlock n).map fun r => (.relationship r.kind r.key, r.toValue) := by
  rw [relationships, Relationship.declaredInBlock, List.map_flatMap,
    List.filterMap_eq_flatMap_toList, List.map_flatMap]
  congr 1
  funext part
  exact entry_relationship _ part

/-- The record of a service is its own; those of the methods have addresses inside it. -/
theorem entry_service (n : Node) :
    ∃ methods : List (Address × Value), (∀ e ∈ methods, e.1.container.length = 3) ∧
      (service n).map entry = ((n.child .serviceName).map fun name =>
        Service.ofDeclaration n name.text).toList.map (fun s => (.service s.name, s.toValue)) ++
          methods := by
  rw [service]
  cases n.child .serviceName with
  | none => exact ⟨[], by simp, rfl⟩
  | some name =>
      refine ⟨((n.childrenOf .serviceMethod).flatMap (method name.text)).map entry, ?_, rfl⟩
      intro e member
      obtain ⟨d, inMethods, rfl⟩ := List.mem_map.mp member
      obtain ⟨m, _, declares⟩ := List.mem_flatMap.mp inMethods
      unfold method at declares
      split at declares
      · cases declares
      · rw [List.mem_singleton.mp declares]
        rfl

end Entries

section Families

variable {container : List String} (n : Node)

theorem recordsIn_entity (part : Section) :
    recordsIn container ((entity part n).map entry) =
      (if container = [part.key] then part.declaration n else []).map fun e =>
        (e.name, e.toValue) := by
  rw [entry_entity]
  exact recordsIn_map (fun e : Entity => .entity part e.name) Entity.toValue (fun _ => rfl) _

theorem recordsIn_enum :
    recordsIn container ((enum n).map entry) =
      (if container = ["enums"] then ((n.child .enumName).map fun name =>
        Enum.ofDeclaration n name.text).toList else []).map fun e => (e.name, e.toValue) := by
  rw [entry_enum]
  exact recordsIn_map (fun e : Enum => .enum e.name) Enum.toValue (fun _ => rfl) _

theorem recordsIn_relationships :
    recordsIn container ((relationships n).map entry) =
      ((Relationship.declaredInBlock n).filter fun r =>
        ["relationships", r.kind] == container).map fun r => (r.key, r.toValue) := by
  rw [entry_relationships, recordsIn, List.filter_map, List.map_map]
  rfl

theorem recordsIn_service (short : container.length < 3) :
    recordsIn container ((service n).map entry) =
      (if container = ["services"] then ((n.child .serviceName).map fun name =>
        Service.ofDeclaration n name.text).toList else []).map fun s => (s.name, s.toValue) := by
  obtain ⟨methods, long, entries⟩ := entry_service n
  have none : recordsIn container methods = [] := by
    refine recordsIn_eq_nil fun e member same => ?_
    have := long e member
    rw [same] at this
    omega
  rw [entries, recordsIn_append, none, List.append_nil]
  exact recordsIn_map (fun s : Service => .service s.name) Service.toValue (fun _ => rfl) _

end Families

section TopLevel

variable (n : Node)

theorem recordsIn_topLevel_part (part : Section) :
    recordsIn [part.key] ((topLevel n).map entry) =
      (if n.kind = part.kind then part.declaration n else []).map fun e =>
        (e.name, e.toValue) := by
  unfold topLevel
  cases part <;> split <;>
    simp_all [recordsIn_entity, recordsIn_enum, recordsIn_relationships, recordsIn_service,
      Section.kind]

theorem recordsIn_topLevel_enums :
    recordsIn ["enums"] ((topLevel n).map entry) =
      (Enum.declaredIn [n]).map fun e => (e.name, e.toValue) := by
  unfold topLevel
  split <;>
    simp_all [recordsIn_entity, recordsIn_enum, recordsIn_relationships, recordsIn_service,
      Enum.declaredIn_singleton, Enum.declaredIn_of_ne]

theorem recordsIn_topLevel_services :
    recordsIn ["services"] ((topLevel n).map entry) =
      (Service.declaredIn [n]).map fun e => (e.name, e.toValue) := by
  unfold topLevel
  split <;>
    simp_all [recordsIn_entity, recordsIn_enum, recordsIn_relationships, recordsIn_service,
      Service.declaredIn_singleton, Service.declaredIn_of_not, Node.declaresService]

theorem recordsIn_topLevel_relationships (kind : String) :
    recordsIn ["relationships", kind] ((topLevel n).map entry) =
      ((Relationship.declaredIn [n]).filter (·.kind == kind)).map fun r =>
        (r.key, r.toValue) := by
  unfold topLevel
  split <;>
    simp_all [recordsIn_entity, recordsIn_enum, recordsIn_relationships, recordsIn_service,
      Relationship.declaredIn_singleton, Relationship.declaredIn_of_ne]

end TopLevel

/-! ## The records of a tree -/

/-- What some nodes declare is what each of them declares. -/
theorem flatMap_declared {β γ : Type} (declared : List Node → List β) (none : declared [] = [])
    (append : ∀ first second, declared (first ++ second) = declared first ++ declared second)
    (change : β → γ) (ns : List Node) :
    (ns.flatMap fun n => (declared [n]).map change) = (declared ns).map change := by
  induction ns with
  | nil => rw [List.flatMap_nil, none, List.map_nil]
  | cons n rest ih =>
      have parts : declared (n :: rest) = declared [n] ++ declared rest := append [n] rest
      rw [List.flatMap_cons, ih, parts, List.map_append]

theorem recordsIn_declarations (container : List String) (tree : Node) :
    recordsIn container ((EntityBuilder.declarations tree).map entry) =
      tree.children.flatMap fun n => recordsIn container ((topLevel n).map entry) := by
  rw [EntityBuilder.declarations]
  generalize tree.children = ns
  induction ns with
  | nil => rfl
  | cons n rest ih => rw [List.flatMap_cons, List.map_append, recordsIn_append, ih, List.flatMap_cons]

end Declaration

namespace EntityBuilder

open Declaration

theorem recordsIn_part (tree : Node) (part : Section) :
    recordsIn [part.key] ((declarations tree).map entry) =
      (part.declared tree).map fun e => (e.name, e.toValue) := by
  rw [recordsIn_declarations, Section.declared, Node.childrenOf]
  simp only [recordsIn_topLevel_part]
  induction tree.children with
  | nil => rfl
  | cons n rest ih =>
      rw [List.flatMap_cons, ih]
      by_cases declares : n.kind = part.kind
      · rw [if_pos declares, List.filter_cons_of_pos (by simp [declares]), List.flatMap_cons,
          List.map_append]
      · rw [if_neg declares, List.filter_cons_of_neg (by simp [declares])]
        rfl

theorem recordsIn_relationships_ofTree (tree : Node) (kind : String) :
    recordsIn ["relationships", kind] ((declarations tree).map entry) =
      ((Relationship.declaredIn tree.children).filter (·.kind == kind)).map fun r =>
        (r.key, r.toValue) := by
  rw [recordsIn_declarations]
  simp only [recordsIn_topLevel_relationships]
  refine flatMap_declared (fun ns => (Relationship.declaredIn ns).filter (·.kind == kind)) rfl ?_ _ _
  intro first second
  rw [Relationship.declaredIn_append, List.filter_append]

theorem recordsIn_enums_ofTree (tree : Node) :
    recordsIn ["enums"] ((declarations tree).map entry) =
      (Enum.declaredIn tree.children).map fun e => (e.name, e.toValue) := by
  rw [recordsIn_declarations]
  simp only [recordsIn_topLevel_enums]
  exact flatMap_declared Enum.declaredIn rfl Enum.declaredIn_append _ _

theorem recordsIn_services_ofTree (tree : Node) :
    recordsIn ["services"] ((declarations tree).map entry) =
      (Service.declaredIn tree.children).map fun s => (s.name, s.toValue) := by
  rw [recordsIn_declarations]
  simp only [recordsIn_topLevel_services]
  exact flatMap_declared Service.declaredIn rfl Service.declaredIn_append _ _

/-- A document has a relationship under its kind and its key. -/
theorem atKeys?_relationship (d : EntityDocument) (kind key : String) :
    d.toValue.atKeys? ["relationships", kind, key] =
      ((d.relationshipsOf kind).mapValues Relationship.toValue).value? key := by
  rw [Value.atKeys?_cons, d.get?_relationships, EntityDocument.relationshipsOf]
  show (Value.mapping (OrderedMap.mapValues _ _)).atKeys? [kind, key] = _
  rw [Value.atKeys?_cons]
  show (OrderedMap.value? (OrderedMap.mapValues _ _) kind).bind _ = _
  rw [OrderedMap.value?_mapValues]
  -- a kind without relationships has no mapping, and an empty one would give the same
  cases d.relationships.value? kind with
  | none => rfl
  | some partition => exact Value.atKeys?_singleton _ key

/-- **A document has under the address of a record what the declarations put there.** -/
theorem atKeys?_ofTree (tree : Node) {a : Address} (isRecord : a.isRecord = true) :
    (ofTree tree).document.toValue.atKeys? a.keys =
      (OrderedMap.ofEntries
        (recordsIn a.container ((declarations tree).map entry))).value? a.key := by
  cases a with
  | entity part name =>
      have found := (ofTree tree).document.get?_toValue part
      rw [entitiesOf_ofTree, OrderedMap.mapValues_ofEntries, List.map_map] at found
      show (ofTree tree).document.toValue.atKeys? [part.key, name] =
        (OrderedMap.ofEntries (recordsIn [part.key] _)).value? name
      rw [Value.atKeys?_cons, found, recordsIn_part]
      exact Value.atKeys?_singleton _ name
  | enum name =>
      have found := (ofTree tree).document.get?_enums
      rw [enums_ofTree, OrderedMap.mapValues_ofEntries, List.map_map] at found
      show (ofTree tree).document.toValue.atKeys? ["enums", name] =
        (OrderedMap.ofEntries (recordsIn ["enums"] _)).value? name
      rw [Value.atKeys?_cons, found, recordsIn_enums_ofTree]
      exact Value.atKeys?_singleton _ name
  | service name =>
      have found := (ofTree tree).document.get?_services
      rw [services_ofTree, OrderedMap.mapValues_ofEntries, List.map_map] at found
      show (ofTree tree).document.toValue.atKeys? ["services", name] =
        (OrderedMap.ofEntries (recordsIn ["services"] _)).value? name
      rw [Value.atKeys?_cons, found, recordsIn_services_ofTree]
      exact Value.atKeys?_singleton _ name
  | relationship kind key =>
      show (ofTree tree).document.toValue.atKeys? ["relationships", kind, key] =
        (OrderedMap.ofEntries (recordsIn ["relationships", kind] _)).value? key
      rw [atKeys?_relationship, relationshipsOf_ofTree, OrderedMap.mapValues_ofEntries,
        List.map_map, recordsIn_relationships_ofTree]
      rfl
  | method owner name => cases isRecord
  | flow name => cases isRecord
  | system owner name => cases isRecord
  | start owner name => cases isRecord

end EntityBuilder

/-- **A record and the location under its path come from the same declaration.** If no declared
name, field type or kind of relationships has a dot, then whatever an entity, event, input, enum,
service or relationship of the document is, it is the record of the last declaration that has its
address, and the location under the path of this address is the place of that declaration. -/
theorem Model.ofEntityTree_located {tree : Node}
    (undotted : ∀ s ∈ EntityBuilder.sites tree, s.address.Undotted) {a : Address}
    (isRecord : a.isRecord = true) {v : Value}
    (stored : (Model.ofEntityTree tree).document.atKeys? a.keys = some v) :
    ∃ d, LastOf (·.site.address = a) (EntityBuilder.declarations tree) d ∧ d.record = v ∧
      (Model.ofEntityTree tree).locations.value? a.path = some d.site.node.span := by
  have found : (EntityBuilder.ofTree tree).document.toValue.atKeys? a.keys = some v := stored
  rw [EntityBuilder.atKeys?_ofTree tree isRecord] at found
  -- what is stored was put there by some declaration, so there is a last one
  have declared : ∃ d ∈ EntityBuilder.declarations tree, d.site.address = a := by
    by_contra none
    have free : a.key ∉ (OrderedMap.ofEntries (Declaration.recordsIn a.container
        ((EntityBuilder.declarations tree).map Declaration.entry))).keys := by
      rw [OrderedMap.mem_keys_ofEntries, Declaration.mem_recordsIn_key]
      rintro ⟨e, member, same⟩
      obtain ⟨d, inTree, rfl⟩ := List.mem_map.mp member
      exact none ⟨d, inTree, Address.eq_of_keys_eq same⟩
    rw [OrderedMap.value?_eq_none_iff.mpr free] at found
    cases found
  obtain ⟨d, last⟩ := exists_lastOf declared
  have record := Declaration.value?_recordsIn_last last
  rw [found] at record
  refine ⟨d, last, (Option.some.inj record).symm, ?_⟩
  show (EntityBuilder.ofTree tree).locations.value? a.path = _
  rw [EntityBuilder.locations_ofTree]
  have lastSite : LastOf (fun s => s.address = a) (EntityBuilder.sites tree) d.site :=
    LastOf.map (f := Declaration.site) last
  exact Site.value?_locations undotted lastSite

namespace EntityBuilder

/-- An entity with a field whose nested body is called like the entity. -/
def treeWithOwnBody : Node :=
  let node (kind : Node.Kind) (text : String) (start stop : Nat) :=
    Node.mk kind text ⟨start, stop, 1, start + 1, 1, stop + 1⟩
  node .zdl "" 0 30
    [node .entity "" 0 30
      [node .entityName "A" 7 8 [],
        node .field "" 11 28
          [node .fieldName "a" 11 12 [], node .fieldType "A" 13 14 [node .id "A" 13 14 []],
            node .nestedField "" 15 28
              [node .field "" 17 25
                [node .fieldName "x" 17 18 [],
                  node .fieldType "String" 19 25 [node .id "String" 19 25 []]]]]]]

end EntityBuilder

/-- The body takes the place of the entity around it, in the document and in the locations. -/
theorem Model.ofEntityTree_located_body :
    ∃ v d, (Model.ofEntityTree EntityBuilder.treeWithOwnBody).document.atKeys?
        (Address.entity .entities "A").keys = some v ∧
      LastOf (·.site.address = .entity .entities "A")
        (EntityBuilder.declarations EntityBuilder.treeWithOwnBody) d ∧ d.record = v ∧
      (Model.ofEntityTree EntityBuilder.treeWithOwnBody).locations.value? "entities.A" =
        some d.site.node.span ∧ d.site.node.span.start = 15 := by
  have undotted : ∀ s ∈ EntityBuilder.sites EntityBuilder.treeWithOwnBody,
      s.address.Undotted := by
    decide +kernel
  have isStored : ((Model.ofEntityTree EntityBuilder.treeWithOwnBody).document.atKeys?
      (Address.entity .entities "A").keys).isSome = true := by
    decide +kernel
  obtain ⟨v, stored⟩ := Option.isSome_iff_exists.mp isStored
  obtain ⟨d, last, record, located⟩ := Model.ofEntityTree_located undotted rfl stored
  have place : ((Model.ofEntityTree EntityBuilder.treeWithOwnBody).locations.value?
      (Address.entity .entities "A").path).map (·.start) = some 15 := by
    decide +kernel
  rw [located] at place
  exact ⟨v, d, stored, last, record, located, Option.some.inj place⟩

end EntityFlow
