import EntityFlow.Proofs.Document.Declarations
import EntityFlow.Proofs.Document.Omissions

/-!
# Arrangements of declarations

The top-level nodes of an entity source fall into groups by the part of the document that they write
(`Node.Group`). A document is what its groups say, each one for itself
(`EntityBuilder.document_ofTree`). So declarations of different groups do not interfere: only the
order inside each group counts (`Model.ofEntityTree_rearranged`).

For entities, enums, relationships and services this is known from what a tree declares. What is
left are the documentation and the constants, which no other declaration touches
(`EntityBuilder.KeepsFront`).
-/

namespace EntityFlow

/-! ## Groups -/

/-- The groups of top-level nodes that write the same part of a document. -/
inductive Node.Group
  | documentation
  | constants
  | entities (part : Section)
  | enums
  | relationships
  | services
deriving DecidableEq

namespace Node.Group

/-- The group that nodes of a kind belong to, if they are of any use at the top level. -/
def ofKind? : Kind → Option Group
  | .globalJavadoc => some .documentation
  | .legacyConstant => some .constants
  | .entity => some (.entities .entities)
  | .event => some (.entities .events)
  | .input => some (.entities .inputs)
  | .enum => some .enums
  | .relationships => some .relationships
  | .service | .serviceLegacy => some .services
  | _ => none

/-- The members of a group among some nodes, in order. -/
def members (g : Group) (ns : List Node) : List Node :=
  ns.filter fun n => ofKind? n.kind == some g

theorem members_append (g : Group) (first second : List Node) :
    g.members (first ++ second) = g.members first ++ g.members second := List.filter_append ..

theorem members_singleton {g : Group} {n : Node} (inside : ofKind? n.kind = some g) :
    g.members [n] = [n] := by
  rw [members, List.filter_cons_of_pos (by simp [inside]), List.filter_nil]

theorem members_of_ne {g : Group} {n : Node} (outside : ofKind? n.kind ≠ some g) :
    g.members [n] = [] := by
  rw [members, List.filter_cons_of_neg (by simpa using outside), List.filter_nil]

theorem members_members (g : Group) (ns : List Node) : g.members (g.members ns) = g.members ns := by
  simp [members]

/-- A test that holds for the nodes of a group selects the members of the group. -/
theorem filter_eq_members {g : Group} {test : Node → Bool}
    (tells : ∀ n, test n = (ofKind? n.kind == some g)) (ns : List Node) :
    ns.filter test = g.members ns := by
  rw [members, funext tells]

theorem entities_eq_members (part : Section) (ns : List Node) :
    ns.filter (·.kind == part.kind) = (entities part).members ns := by
  apply filter_eq_members
  intro n
  cases part <;> cases n.kind <;> rfl

theorem enums_eq_members (ns : List Node) :
    ns.filter (·.kind == .enum) = enums.members ns := by
  apply filter_eq_members
  intro n
  cases n.kind <;> rfl

theorem relationships_eq_members (ns : List Node) :
    ns.filter (·.kind == .relationships) = relationships.members ns := by
  apply filter_eq_members
  intro n
  cases n.kind <;> rfl

theorem services_eq_members (ns : List Node) :
    ns.filter Node.declaresService = services.members ns := by
  apply filter_eq_members
  intro n
  unfold Node.declaresService
  cases n.kind <;> rfl

theorem declaredIn_enums (ns : List Node) :
    Enum.declaredIn (enums.members ns) = Enum.declaredIn ns := by
  rw [Enum.declaredIn, Enum.declaredIn, enums_eq_members, enums_eq_members, members_members]

theorem declaredIn_relationships (ns : List Node) :
    Relationship.declaredIn (relationships.members ns) = Relationship.declaredIn ns := by
  rw [Relationship.declaredIn, Relationship.declaredIn, relationships_eq_members,
    relationships_eq_members, members_members]

theorem declaredIn_services (ns : List Node) :
    Service.declaredIn (services.members ns) = Service.declaredIn ns := by
  rw [Service.declaredIn, Service.declaredIn, services_eq_members, services_eq_members,
    members_members]

end Node.Group

/-! ## Documentation and constants -/

/-- The documentation that a documentation comment stands for. -/
def Node.documented (n : Node) : String := String.ofList (Text.documentation n.text.toList)

/-- The constant that a declaration defines, if it has a name. -/
def Node.constant? (n : Node) : Option (String × Value) :=
  n.children.head?.map fun name => (name.text, Node.valueOrTrue n.children.tail.head?)

namespace EntityBuilder

/-- A step that leaves the documentation and the constants of the document alone. -/
structure KeepsFront (before after : EntityBuilder) : Prop where
  documentation : after.document.documentation = before.document.documentation
  constants : after.document.constants = before.document.constants

namespace KeepsFront

variable {before middle after : EntityBuilder}

theorem refl (b : EntityBuilder) : KeepsFront b b := ⟨rfl, rfl⟩

theorem trans (first : KeepsFront before middle) (second : KeepsFront middle after) :
    KeepsFront before after :=
  ⟨second.documentation.trans first.documentation, second.constants.trans first.constants⟩

theorem of_document (same : after.document = before.document) : KeepsFront before after :=
  ⟨congrArg (·.documentation) same, congrArg (·.constants) same⟩

theorem foldl {α : Type} {step : EntityBuilder → α → EntityBuilder}
    (each : ∀ b item, KeepsFront b (step b item)) (items : List α) (b : EntityBuilder) :
    KeepsFront b (items.foldl step b) := by
  induction items generalizing b with
  | nil => exact refl b
  | cons item rest ih => exact (each b item).trans (ih (step b item))

theorem skip (b : EntityBuilder) (n : Node) (context : Context) :
    KeepsFront b (b.skip n context) :=
  of_document rfl

theorem locateNamed (b : EntityBuilder) (path : String) (n name : Node) :
    KeepsFront b (b.locateNamed path n name) :=
  of_document rfl

theorem changeTop (b : EntityBuilder) (change : EntityFrame → EntityFrame) :
    KeepsFront b (b.changeTop change) :=
  of_document rfl

theorem applyOptions (b : EntityBuilder) (n : Node) : KeepsFront b (b.applyOptions n) :=
  foldl (fun b option => changeTop b (·.addOption option)) n.options b

theorem skipErrors (b : EntityBuilder) (context : Context) (ns : List Node) :
    KeepsFront b (b.skipErrors context ns) :=
  foldl (fun b n => skip b n context) _ b

theorem register (frame : EntityFrame) (b : EntityBuilder) : KeepsFront b (b.register frame) := by
  cases frame with
  | entity part record shadowed =>
      unfold EntityBuilder.register
      cases shadowed with
      | true => exact refl b
      | false => cases part <;> exact ⟨rfl, rfl⟩
  | enum record => exact ⟨rfl, rfl⟩
  | service record => exact ⟨rfl, rfl⟩
  | method record => exact of_document rfl

/-- A frame is opened and closed, whatever has been put into it. -/
theorem exit {frame : EntityFrame} (inside : KeepsFront (before.enter frame) after) :
    KeepsFront before after.exit := by
  have entered : KeepsFront before (before.enter frame) := of_document rfl
  have kept : KeepsFront before after := entered.trans inside
  unfold EntityBuilder.exit
  split
  · rename_i top rest _
    have popped : KeepsFront after { after with scope := rest } := of_document rfl
    exact kept.trans (popped.trans (register top _))
  · exact kept

end KeepsFront

section Steps

variable {b : EntityBuilder} (n : Node)

theorem keepsFront_addEntity (closed : b.scope.frames = []) (part : Section) :
    KeepsFront b (b.addEntity part part.nameKind n) := by
  have shows : Shows b part b.document [] := ⟨rfl, closed⟩
  have added := (shows.addEntity n).document
  rw [EntityDocument.putEntities] at added
  constructor
  · rw [added]
    cases part <;> rfl
  · rw [added]
    cases part <;> rfl

theorem keepsFront_addEnumPart (b : EntityBuilder) : KeepsFront b (b.addEnumPart n) := by
  unfold addEnumPart
  split
  · unfold addEnumValue
    split
    · exact .refl b
    · exact .changeTop b _
  · exact .skip b n _
  · exact .refl b

theorem keepsFront_addEnum (b : EntityBuilder) : KeepsFront b (b.addEnum n) := by
  unfold addEnum
  split
  · exact .skip b n _
  · exact (KeepsFront.locateNamed b _ n _).trans (.exit ((KeepsFront.applyOptions _ n).trans
      (.foldl (fun b part => keepsFront_addEnumPart part b) n.children _)))

theorem keepsFront_addRelationships (b : EntityBuilder) : KeepsFront b (b.addRelationships n) := by
  refine .foldl (fun b part => ?_) n.children b
  unfold addRelationshipPart
  split
  · unfold addRelationship
    split
    · exact .skip b part _
    · exact ⟨rfl, rfl⟩
  · exact .skip b part _
  · exact .refl b

theorem keepsFront_addMethod (b : EntityBuilder) (service : String) :
    KeepsFront b (addMethod service b n) := by
  unfold addMethod
  split
  · exact .refl b
  · exact (KeepsFront.locateNamed b _ n _).trans
      (.exit ((KeepsFront.applyOptions _ n).trans (.skipErrors _ _ _)))

theorem keepsFront_addMethods (b : EntityBuilder) (service : String) (aggregates : List String) :
    KeepsFront b (b.addMethods n service aggregates) := by
  unfold addMethods
  split
  · exact .foldl (fun b m => .register (.method m) b) _ b
  · exact .foldl (fun b m => keepsFront_addMethod m b service) _ b

theorem keepsFront_addService (b : EntityBuilder) : KeepsFront b (b.addService n) := by
  unfold addService
  split
  · exact .skip b n _
  · exact (KeepsFront.locateNamed b _ n _).trans (.exit ((KeepsFront.applyOptions _ n).trans
      ((keepsFront_addMethods n _ _ _).trans (.skipErrors _ _ _))))

/-- A node that keeps the front is neither documentation nor a constant. -/
theorem KeepsFront.front {after : EntityBuilder} {n : Node} (keeps : KeepsFront b after)
    (noComment : Node.Group.ofKind? n.kind ≠ some .documentation)
    (noConstant : Node.Group.ofKind? n.kind ≠ some .constants) :
    after.document.documentation =
        ((Node.Group.documentation.members [n]).getLast?.map Node.documented).or
          b.document.documentation ∧
      after.document.constants =
        b.document.constants.putAll
          ((Node.Group.constants.members [n]).filterMap Node.constant?) := by
  rw [Node.Group.members_of_ne noComment, Node.Group.members_of_ne noConstant]
  exact ⟨keeps.documentation, keeps.constants⟩

/-- A top-level node puts the constant that it defines and replaces the documentation if it is
some; and only such nodes touch the two. -/
theorem front_addTopLevel (closed : b.scope.frames = []) :
    (b.addTopLevel n).document.documentation =
        ((Node.Group.documentation.members [n]).getLast?.map Node.documented).or
          b.document.documentation ∧
      (b.addTopLevel n).document.constants =
        b.document.constants.putAll
          ((Node.Group.constants.members [n]).filterMap Node.constant?) := by
  unfold addTopLevel
  cases kind : n.kind with
  | globalJavadoc =>
      rw [Node.Group.members_singleton (g := .documentation) (by rw [kind]; rfl),
        Node.Group.members_of_ne (g := .constants) (by rw [kind]; decide)]
      exact ⟨rfl, rfl⟩
  | legacyConstant =>
      rw [Node.Group.members_singleton (g := .constants) (by rw [kind]; rfl),
        Node.Group.members_of_ne (g := .documentation) (by rw [kind]; decide)]
      unfold addConstant
      cases children : n.children with
      | nil => simp [Node.constant?, children]
      | cons name rest => simp [Node.constant?, children]
  | entity => apply (keepsFront_addEntity n closed .entities).front <;> rw [kind] <;> decide
  | event => apply (keepsFront_addEntity n closed .events).front <;> rw [kind] <;> decide
  | input => apply (keepsFront_addEntity n closed .inputs).front <;> rw [kind] <;> decide
  | enum => apply (keepsFront_addEnum n b).front <;> rw [kind] <;> decide
  | relationships => apply (keepsFront_addRelationships n b).front <;> rw [kind] <;> decide
  | service => apply (keepsFront_addService n b).front <;> rw [kind] <;> decide
  | serviceLegacy => apply (keepsFront_addService n b).front <;> rw [kind] <;> decide
  | _ => apply (KeepsFront.skip b n .document).front <;> rw [kind] <;> decide

end Steps

theorem front_foldl_addTopLevel (ns : List Node) {b : EntityBuilder}
    (closed : b.scope.frames = []) :
    (ns.foldl addTopLevel b).document.documentation =
        ((Node.Group.documentation.members ns).getLast?.map Node.documented).or
          b.document.documentation ∧
      (ns.foldl addTopLevel b).document.constants =
        b.document.constants.putAll
          ((Node.Group.constants.members ns).filterMap Node.constant?) := by
  induction ns generalizing b with
  | nil => exact ⟨rfl, rfl⟩
  | cons n rest ih =>
      obtain ⟨documentation, constants⟩ := front_addTopLevel n closed
      obtain ⟨laterDocumentation, laterConstants⟩ := ih (entitiesOf_addTopLevel closed n).1
      rw [List.foldl_cons, ← List.singleton_append, Node.Group.members_append,
        Node.Group.members_append]
      constructor
      · rw [laterDocumentation, documentation, List.getLast?_append, Option.map_or, Option.or_assoc]
      · rw [laterConstants, constants, List.filterMap_append, OrderedMap.putAll_append]

end EntityBuilder

/-! ## Documents -/

/-- The document that groups of declarations make: each part is what one group declares. -/
def EntityDocument.ofGroups (members : Node.Group → List Node) : EntityDocument :=
  let part (p : Section) := ((members (.entities p)).flatMap p.declaration).map Entity.entry
  { documentation := (members .documentation).getLast?.map Node.documented
    constants := OrderedMap.ofEntries ((members .constants).filterMap Node.constant?)
    entities := OrderedMap.ofEntries (part .entities)
    enums := OrderedMap.ofEntries ((Enum.declaredIn (members .enums)).map Enum.entry)
    relationships :=
      (EntityDocument.putRelationships {}
        (Relationship.declaredIn (members .relationships))).relationships
    services := OrderedMap.ofEntries ((Service.declaredIn (members .services)).map Service.entry)
    events := OrderedMap.ofEntries (part .events)
    inputs := OrderedMap.ofEntries (part .inputs) }

namespace EntityBuilder

/-- **A document is what the groups of its tree declare**, each group for itself. -/
theorem document_ofTree (tree : Node) :
    (ofTree tree).document = EntityDocument.ofGroups fun g => g.members tree.children := by
  obtain ⟨documentation, constants⟩ := front_foldl_addTopLevel tree.children (b := {}) rfl
  have relationships := (adds_foldl_addTopLevel tree.children (b := {}) rfl).relationships
  have part (p : Section) : (ofTree tree).document.entitiesOf p = OrderedMap.ofEntries
      ((((Node.Group.entities p).members tree.children).flatMap p.declaration).map
        Entity.entry) := by
    rw [entitiesOf_ofTree, Section.declared, Node.childrenOf, Node.Group.entities_eq_members]
  have eta (d : EntityDocument) : d =
      ⟨d.documentation, d.constants, d.entitiesOf .entities, d.enums, d.relationships, d.services,
        d.entitiesOf .events, d.entitiesOf .inputs⟩ := rfl
  rw [eta (ofTree tree).document, part, part, part, enums_ofTree, services_ofTree]
  unfold EntityDocument.ofGroups
  rw [Node.Group.declaredIn_enums, Node.Group.declaredIn_relationships,
    Node.Group.declaredIn_services, ofTree, relationships, documentation, constants, Option.or_none]
  rfl

end EntityBuilder

/-- **Declarations of different groups do not interfere.** If the top-level nodes of a tree change
places, but not with nodes of their own group, then the document stays the same, the order of its
keys included; and what it leaves out is the same up to its order. -/
theorem Model.ofEntityTree_rearranged {tree moved : Node}
    (permuted : moved.children.Perm tree.children)
    (kept : ∀ g : Node.Group, g.members moved.children = g.members tree.children) :
    (ofEntityTree moved).document = (ofEntityTree tree).document ∧
      (ofEntityTree moved).diagnostics.Perm (ofEntityTree tree).diagnostics := by
  constructor
  · show (EntityBuilder.ofTree moved).document.toValue =
      (EntityBuilder.ofTree tree).document.toValue
    rw [EntityBuilder.document_ofTree, EntityBuilder.document_ofTree, funext kept]
  · show (EntityBuilder.ofTree moved).diagnostics.Perm (EntityBuilder.ofTree tree).diagnostics
    rw [EntityBuilder.diagnostics_ofTree, EntityBuilder.diagnostics_ofTree]
    exact (permuted.flatMap_right _).map _

namespace EntityBuilder

/-- A declaration of a kind with a name and a field `b` with a nested body, which is an entity `B`
with one field. -/
def withBody (kind nameKind : Node.Kind) (name inner : String) : Node :=
  let node (kind : Node.Kind) (text : String) := Node.mk kind text ⟨0, 0, 0, 0, 0, 0⟩
  node kind "" [node nameKind name [],
    node .field "" [node .fieldName "b" [], node .fieldType "" [node .id "B" []],
      node .nestedField "" [node .field "" [node .fieldName inner []]]]]

end EntityBuilder

/-- An event and an entity with nested bodies of one name, a second entity that is named as the body
of the first one, and a node that is of no use. -/
theorem Model.ofEntityTree_rearranged_bodies :
    let event := EntityBuilder.withBody .event .eventName "E" "x"
    let entity := EntityBuilder.withBody .entity .entityName "A" "y"
    let second := EntityBuilder.withBody .entity .entityName "B" "z"
    let stray : Node := ⟨.flow, "", ⟨0, 0, 0, 0, 0, 0⟩, []⟩
    let tree : Node := ⟨.zdl, "", ⟨0, 0, 0, 0, 0, 0⟩, [event, entity, stray, second]⟩
    let moved : Node := ⟨.zdl, "", ⟨0, 0, 0, 0, 0, 0⟩, [entity, event, second, stray]⟩
    moved.children.Perm tree.children ∧
      (∀ g : Node.Group, g.members moved.children = g.members tree.children) ∧
      (ofEntityTree moved).document = (ofEntityTree tree).document ∧
      (ofEntityTree moved).diagnostics.Perm (ofEntityTree tree).diagnostics := by
  intro event entity second stray tree moved
  have permuted : moved.children.Perm tree.children :=
    (List.Perm.swap event entity _).trans (.cons event (.cons entity (.swap stray second [])))
  have kept : ∀ g : Node.Group, g.members moved.children = g.members tree.children := by
    rintro (_ | _ | part | _ | _ | _)
    case entities => cases part <;> rfl
    all_goals rfl
  exact ⟨permuted, kept, ofEntityTree_rearranged permuted kept⟩

end EntityFlow
