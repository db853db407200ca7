import Mathlib.Algebra.GroupWithZero.Nat
import EntityFlow.Proofs.Document.Declarations
import EntityFlow.Proofs.Grammar.Tiling

/-!
# Implied methods

A service without methods of its own gets five methods for each of its entities, all in one map by
their names. Four of the five are named after the entity and one after its plural. So a method is
lost exactly where two entities have the same plural: then the list method of the last one takes
the place of the others (`Model.ofEntityTree_impliedMethods`). Two names can have one plural, since
a word that ends like a plural is its own (`EntityBuilder.impliedMethods_plural`).
-/

namespace EntityFlow

namespace Crud

/-! ## Names of methods -/

/-- The verbs with which the names of the methods begin. -/
def verbs : List String := ["get", "list", "create", "update", "delete"]

/-- What a verb applies to: a list is one of many. -/
def object (verb entity : String) : String :=
  if verb = "list" then Name.plural entity else entity

@[simp] theorem name_routed (service : Option String) (request path : String) (m : Method) :
    (routed service request path m).name = m.name := by
  cases service <;> rfl

theorem map_name_methods (entity : String) (service : Option String) :
    (methods entity service).map (·.name) = verbs.map fun verb => verb ++ object verb entity := by
  simp [methods, Method.named, verbs, object]

/-- The verbs have different initials, so a name says its verb and its object. -/
theorem verb_append_inj {verb verb' a b : String} (known : verb ∈ verbs) (known' : verb' ∈ verbs)
    (same : verb ++ a = verb' ++ b) : verb = verb' ∧ a = b := by
  have nonempty : ∀ v ∈ verbs, v.toList ≠ [] := by decide
  have initials : ∀ v ∈ verbs, ∀ v' ∈ verbs, v.toList.head? = v'.toList.head? → v = v' := by decide
  have chars : verb.toList ++ a.toList = verb'.toList ++ b.toList := by
    rw [← String.toList_append, same, String.toList_append]
  have verbsEqual : verb = verb' := by
    refine initials verb known verb' known' ?_
    have heads := congrArg List.head? chars
    rwa [List.head?_append_of_ne_nil _ (nonempty verb known),
      List.head?_append_of_ne_nil _ (nonempty verb' known')] at heads
  subst verbsEqual
  exact ⟨rfl, String.toList_inj.mp (List.append_cancel_left chars)⟩

theorem name_of_mem_methods {entity : String} {service : Option String} {m : Method}
    (member : m ∈ methods entity service) :
    ∃ verb ∈ verbs, verb ++ object verb entity = m.name := by
  have among := List.mem_map_of_mem (f := (·.name)) member
  rw [map_name_methods] at among
  exact List.mem_map.mp among

theorem nodup_name_methods (entity : String) (service : Option String) :
    ((methods entity service).map (·.name)).Nodup := by
  rw [map_name_methods]
  refine List.Nodup.map_on (fun verb known verb' known' same => ?_) (by decide)
  exact (verb_append_inj known known' same).1

/-- Methods for two entities have the same name only if it is that of their common list. -/
theorem eq_of_name_eq {a b : String} {service : Option String} {m m' : Method}
    (member : m ∈ methods a service) (member' : m' ∈ methods b service) (same : m.name = m'.name) :
    Name.plural a = Name.plural b ∧ (m.name = "list" ++ Name.plural a ∨ a = b) := by
  obtain ⟨verb, known, name⟩ := name_of_mem_methods member
  obtain ⟨verb', known', name'⟩ := name_of_mem_methods member'
  obtain ⟨rfl, objects⟩ := verb_append_inj known known' (name.trans (same.trans name'.symm))
  by_cases list : verb = "list"
  · subst list
    exact ⟨objects, Or.inl name.symm⟩
  · rw [object, object, if_neg list, if_neg list] at objects
    exact ⟨congrArg _ objects, Or.inr objects⟩

/-! ## Methods for several entities -/

/-- The methods for several entities. -/
def methodsFor (entities : List String) (service : Option String) : List Method :=
  entities.flatMap (methods · service)

/-- The methods for several entities by their names. -/
def methodMap (entities : List String) (service : Option String) : OrderedMap Method :=
  OrderedMap.ofEntries ((methodsFor entities service).map Method.entry)

theorem map_object {verb : String} (other : verb ≠ "list") (entities : List String) :
    entities.map (object verb) = entities := by
  have same : object verb = id := by
    funext entity
    exact if_neg other
  rw [same, List.map_id]

theorem map_object_list (entities : List String) :
    entities.map (object "list") = entities.map Name.plural := rfl

/-- As many names begin with some of the verbs as there are objects of each. -/
theorem length_dedup_names (entities : List String) {vs : List String} (known : vs ⊆ verbs)
    (nodup : vs.Nodup) :
    (vs.flatMap fun verb => entities.map fun e => verb ++ object verb e).dedup.length =
      (vs.map fun verb => (entities.map (object verb)).dedup.length).sum := by
  induction vs with
  | nil => rfl
  | cons verb rest ih =>
      obtain ⟨fresh, nodupRest⟩ := List.nodup_cons.mp nodup
      obtain ⟨knownVerb, knownRest⟩ := List.cons_subset.mp known
      have apart : (entities.map fun e => verb ++ object verb e).Disjoint
          (rest.flatMap fun verb => entities.map fun e => verb ++ object verb e) := by
        intro name first later
        obtain ⟨a, _, rfl⟩ := List.mem_map.mp first
        obtain ⟨other, member, among⟩ := List.mem_flatMap.mp later
        obtain ⟨b, _, same⟩ := List.mem_map.mp among
        exact fresh ((verb_append_inj knownVerb (knownRest member) same.symm).1 ▸ member)
      have inner : (entities.map fun e => verb ++ object verb e).dedup.length =
          (entities.map (object verb)).dedup.length := by
        have split : (entities.map fun e => verb ++ object verb e) =
            (entities.map (object verb)).map (verb ++ ·) := by
          rw [List.map_map]
          rfl
        rw [split, List.dedup_map_of_injective, List.length_map]
        exact fun a b same => (verb_append_inj knownVerb knownVerb same).2
      rw [List.flatMap_cons, apart.dedup_append, List.length_append, inner,
        ih knownRest nodupRest, List.map_cons, List.sum_cons]

/-- The methods for several entities have four names for each entity and one for each plural. -/
theorem length_methodMap (entities : List String) (service : Option String) :
    (methodMap entities service).length =
      4 * entities.dedup.length + (entities.map Name.plural).dedup.length := by
  have names : ((methodsFor entities service).map Method.entry).map (·.1) =
      entities.flatMap fun e => verbs.map fun verb => verb ++ object verb e := by
    rw [List.map_map, methodsFor, List.map_flatMap]
    exact List.flatMap_congr fun e _ => map_name_methods e service
  -- grouped by the verb, names of different groups differ
  have regrouped :
      (entities.flatMap fun e => verbs.map fun verb => verb ++ object verb e).dedup.Perm
        (verbs.flatMap fun verb => entities.map fun e => verb ++ object verb e).dedup := by
    refine (List.perm_ext_iff_of_nodup (List.nodup_dedup _) (List.nodup_dedup _)).mpr fun name => ?_
    simp only [List.mem_dedup, List.mem_flatMap, List.mem_map]
    tauto
  rw [methodMap, OrderedMap.length_ofEntries, names, regrouped.length_eq,
    length_dedup_names entities (List.Subset.refl _) (by decide), verbs]
  simp only [List.map_cons, List.map_nil, List.sum_cons, List.sum_nil, map_object_list,
    map_object (by decide : "get" ≠ "list"), map_object (by decide : "create" ≠ "list"),
    map_object (by decide : "update" ≠ "list"), map_object (by decide : "delete" ≠ "list")]
  omega

/-- A method stays unless it is a list and a later entity has the same plural. -/
theorem value?_methodMap {entities earlier later : List String} {entity : String}
    (distinct : entities.Nodup) (place : entities = earlier ++ entity :: later)
    {service : Option String} {m : Method} (member : m ∈ methods entity service)
    (last : m.name = "list" ++ Name.plural entity →
      ∀ other ∈ later, Name.plural other ≠ Name.plural entity) :
    (methodMap entities service).value? m.name = some m := by
  obtain ⟨before, after, split⟩ := List.append_of_mem member
  have nodup := nodup_name_methods entity service
  rw [split, List.map_append, List.map_cons] at nodup
  subst place
  have fresh : m.name ∉ ((after ++ methodsFor later service).map Method.entry).map (·.1) := by
    rw [List.map_map, List.map_append, List.mem_append, not_or]
    refine ⟨(List.nodup_cons.mp (List.Nodup.of_append_right nodup)).1, fun among => ?_⟩
    obtain ⟨m', member', same⟩ := List.mem_map.mp among
    obtain ⟨other, further, member'⟩ := List.mem_flatMap.mp member'
    obtain ⟨plurals, list | equal⟩ := eq_of_name_eq member member' same.symm
    · exact last list other further plurals.symm
    · subst equal
      exact (List.nodup_cons.mp (List.Nodup.of_append_right distinct)).1 further
  have entries : (methodsFor (earlier ++ entity :: later) service).map Method.entry =
      (methodsFor earlier service ++ before).map Method.entry ++
        m.entry :: (after ++ methodsFor later service).map Method.entry := by
    simp [methodsFor, split]
  rw [methodMap, entries]
  exact OrderedMap.value?_ofEntries_last fresh

/-- All methods for several entities are there if and only if no two of these have one plural. -/
theorem complete_iff {entities : List String} (distinct : entities.Nodup)
    (service : Option String) :
    ((methodMap entities service).length = 5 * entities.length ∧
      ∀ entity ∈ entities, ∀ m ∈ methods entity service,
        (methodMap entities service).value? m.name = some m) ↔
      (entities.map Name.plural).Nodup := by
  have count := length_methodMap entities service
  rw [List.dedup_eq_self.mpr distinct] at count
  constructor
  · rintro ⟨five, _⟩
    have all : (entities.map Name.plural).dedup.length = (entities.map Name.plural).length := by
      rw [List.length_map]
      omega
    rw [← List.dedup_eq_self]
    exact (List.dedup_sublist _).eq_of_length all
  · intro plurals
    constructor
    · rw [List.dedup_eq_self.mpr plurals, List.length_map] at count
      omega
    · intro entity among m member
      obtain ⟨earlier, later, place⟩ := List.append_of_mem among
      refine value?_methodMap distinct place member fun _ other further same => ?_
      rw [place, List.map_append, List.map_cons] at plurals
      exact (List.nodup_cons.mp (List.Nodup.of_append_right plurals)).1
        (same ▸ List.mem_map_of_mem further)

end Crud

/-! ## Services without methods -/

namespace Service

/-- The service that the implied methods of a declaration name: none if it is in the legacy
style. -/
def ownerOf (n : Node) (name : String) : Option String :=
  if n.kind = .serviceLegacy then none else some name

/-- A declaration without methods has the implied methods. -/
theorem methods_ofDeclaration {n : Node} (bare : n.childrenOf .serviceMethod = [])
    (name : String) :
    (ofDeclaration n name).methods = Crud.methodMap (aggregatesOf n) (ownerOf n name) := by
  rw [ofDeclaration, methodsOf, bare]
  rfl

end Service

/-- **The implied methods of a service are complete if and only if no two of its entities have one
plural.** -/
theorem Model.ofEntityTree_impliedMethods {tree n name : Node} {before after : List Node}
    (place : tree.children = before ++ n :: after) (service : n.declaresService)
    (named : n.child .serviceName = some name) (bare : n.childrenOf .serviceMethod = [])
    (distinct : (Service.aggregatesOf n).Nodup) :
    ∃ record : Service, record.name = name.text ∧ record.aggregates = Service.aggregatesOf n ∧
      (Model.ofEntityTree tree).document.get? "services" = some (.mapping
        ((OrderedMap.ofEntries
          ((Service.declaredIn before ++ record :: Service.declaredIn after).map
            Service.entry)).mapValues Service.toValue)) ∧
      (name.text ∉ (Service.declaredIn after).map (·.name) →
        (EntityBuilder.ofTree tree).document.services.value? name.text = some record) ∧
      record.methods.length =
        4 * record.aggregates.length + (record.aggregates.map Name.plural).dedup.length ∧
      (∀ earlier entity later, record.aggregates = earlier ++ entity :: later →
        ∀ m ∈ Crud.methods entity (Service.ownerOf n name.text),
          (m.name = "list" ++ Name.plural entity →
            ∀ other ∈ later, Name.plural other ≠ Name.plural entity) →
          record.methods.value? m.name = some m) ∧
      ((record.methods.length = 5 * record.aggregates.length ∧
        ∀ entity ∈ record.aggregates, ∀ m ∈ Crud.methods entity (Service.ownerOf n name.text),
          record.methods.value? m.name = some m) ↔
        (record.aggregates.map Name.plural).Nodup) := by
  have declared : Service.declaredIn tree.children = Service.declaredIn before ++
      Service.ofDeclaration n name.text :: Service.declaredIn after := by
    rw [place, Service.declaredIn_append, ← List.singleton_append, Service.declaredIn_append,
      Service.declaredIn_singleton service, named]
    rfl
  have services := EntityBuilder.services_ofTree tree
  rw [declared] at services
  refine ⟨Service.ofDeclaration n name.text, rfl, rfl, ?_, fun last => ?_, ?_, ?_, ?_⟩
  · rw [Model.ofEntityTree, EntityBuilder.model, EntityDocument.get?_services, services]
  · rw [services, List.map_append, List.map_cons]
    refine OrderedMap.value?_ofEntries_last ?_
    rw [List.map_map]
    exact last
  · rw [Service.methods_ofDeclaration bare, Crud.length_methodMap, List.dedup_eq_self.mpr distinct]
    rfl
  · intro earlier entity later aggregates m member last
    rw [Service.methods_ofDeclaration bare]
    exact Crud.value?_methodMap distinct aggregates member last
  · rw [Service.methods_ofDeclaration bare]
    exact Crud.complete_iff distinct _

namespace EntityBuilder

/-- A service in the legacy style for two entities. -/
def legacyService : Node :=
  let node (kind : Node.Kind) (text : String) := Node.mk kind text ⟨0, 0, 0, 0, 0, 0⟩
  node .serviceLegacy ""
    [node .serviceAggregates "" [node .id "Order" [], node .id "Person" []],
      node .serviceName "S" []]

theorem impliedMethods_legacy :
    ∃ record : Service,
      (ofTree ⟨.zdl, "", ⟨0, 0, 0, 0, 0, 0⟩, [legacyService]⟩).document.services.value? "S" =
        some record ∧
      record.aggregates = ["Order", "Person"] ∧ record.methods.length = 10 ∧
      ∀ entity ∈ record.aggregates, ∀ m ∈ Crud.methods entity none,
        record.methods.value? m.name = some m := by
  obtain ⟨record, -, aggregates, -, last, -, -, complete⟩ :=
    @Model.ofEntityTree_impliedMethods ⟨.zdl, "", ⟨0, 0, 0, 0, 0, 0⟩, [legacyService]⟩ legacyService
      ⟨.serviceName, "S", ⟨0, 0, 0, 0, 0, 0⟩, []⟩ [] [] rfl (by decide) rfl rfl (by decide)
  have plurals : (record.aggregates.map Name.plural).Nodup := by
    rw [aggregates]
    decide +kernel
  obtain ⟨count, present⟩ := complete.mpr plurals
  rw [aggregates] at count
  exact ⟨record, last (by decide), aggregates, count, present⟩

/-- A service for an entity and another one that is called like its plural. -/
def serviceOfPlural : String := "service S for (Order, Orders)\n"

/-- Only one of the two list methods is there. -/
theorem impliedMethods_plural :
    ∃ p, Parse.ofSource? .entity 10 serviceOfPlural = .ok p ∧ p.faults = [] ∧
      ∃ record : Service, (ofTree p.tree).document.services.value? "S" = some record ∧
        record.aggregates = ["Order", "Orders"] ∧
        ¬ (record.methods.length = 5 * record.aggregates.length ∧
          ∀ entity ∈ record.aggregates, ∀ m ∈ Crud.methods entity (some "S"),
            record.methods.value? m.name = some m) := by
  obtain ⟨tokens, lexed⟩ : ∃ tokens, Token.lex serviceOfPlural = .ok tokens :=
    Token.exists_of_isOk (by decide +kernel)
  refine ⟨_, Parse.ofSource?_of_lex lexed .entity 10, ?_⟩
  have computed : ((Token.lex serviceOfPlural).toOption.map fun tokens =>
      let p := Parse.ofTokens .entity 10 tokens
      (p.faults, ((ofTree p.tree).document.services.value? "S").map fun record =>
        (record.aggregates, record.methods.length))) =
      some ([], some (["Order", "Orders"], 9)) := by
    decide +kernel
  rw [lexed] at computed
  obtain ⟨noFault, services⟩ := Prod.mk.inj (Option.some.inj computed)
  obtain ⟨record, found, values⟩ := Option.map_eq_some_iff.mp services
  obtain ⟨aggregates, count⟩ := Prod.mk.inj values
  refine ⟨noFault, record, found, aggregates, fun complete => ?_⟩
  rw [aggregates, count] at complete
  exact absurd complete.1 (by decide)

end EntityBuilder

end EntityFlow
