import EntityFlow.Proofs.Document.Shadowing

/-!
# The entities of a document

Which entities a document holds is said by its tree alone. Each part of the document has a list of
declared entities, in the order of the source: for every declaration of the part that has a name,
its own entity and then the entities of the nested bodies of its fields, an outer one before those
inside it (`Section.declared`). The part is what putting these one after the other under their names
gives, whatever scopes were open and whatever places were reserved on the way
(`Model.ofEntityTree_sections`).
-/

namespace EntityFlow

/-! ## Declared entities -/

/-- The fields among some nodes, each under its name. -/
def Field.entriesOf (ns : List Node) : List (String × Field) :=
  (ns.filter (·.kind == .field)).map fun n => ((Field.ofNode n).name, Field.ofNode n)

theorem Field.entriesOf_cons_of_field {n : Node} (isField : n.kind = .field) (rest : List Node) :
    entriesOf (n :: rest) = ((Field.ofNode n).name, Field.ofNode n) :: entriesOf rest := by
  simp [entriesOf, isField]

theorem Field.entriesOf_cons_of_ne {n : Node} (other : n.kind ≠ .field) (rest : List Node) :
    entriesOf (n :: rest) = entriesOf rest := by
  simp [entriesOf, other]

namespace Entity

/-- The entity of a declaration with a name: all names that follow from it, the attributes, the
options and the fields that are parts of the declaration itself. -/
def ofDeclaration (n : Node) (name : String) : Entity :=
  { Entity.named name with
    tableName := n.childText .tableName
    documentation := n.documentation?
    channel := n.childText .eventChannel
    options := OrderedMap.ofEntries n.options
    fields := OrderedMap.ofEntries (Field.entriesOf n.children) }

/-- The entity of the nested body of a field. -/
def ofBody (field : Field) (body : List Node) : Entity :=
  { Entity.named field.type with
    tableName := (body.find? (·.kind == .tableName)).map (·.text)
    documentation := field.documentation
    options := [("embedded", .boolean true)]
    fields := OrderedMap.ofEntries (Field.entriesOf body) }

mutual

/-- The entities of the nested bodies of the fields among some nodes, each before those inside
it. -/
def embeddedIn : List Node → List Entity
  | [] => []
  | n :: rest =>
      (match n.kind with
        | .field => embeddedInField n
        | _ => []) ++ embeddedIn rest

/-- The entities of the nested body of a field. -/
def embeddedInField : Node → List Entity
  | ⟨k, text, span, parts⟩ => embeddedInBody (Field.ofNode ⟨k, text, span, parts⟩) parts

/-- The entities of the first nested body among the parts of a field. -/
def embeddedInBody (field : Field) : List Node → List Entity
  | [] => []
  | ⟨.nestedField, _, _, body⟩ :: _ => ofBody field body :: embeddedIn body
  | _ :: rest => embeddedInBody field rest

end

theorem embeddedIn_cons_of_field {n : Node} (isField : n.kind = .field) (rest : List Node) :
    embeddedIn (n :: rest) = embeddedInField n ++ embeddedIn rest := by
  rw [embeddedIn, isField]

theorem embeddedIn_cons_of_ne {n : Node} (other : n.kind ≠ .field) (rest : List Node) :
    embeddedIn (n :: rest) = embeddedIn rest := by
  rw [embeddedIn]
  split
  · exact absurd ‹_› other
  · rfl

theorem embeddedInBody_eq (field : Field) (parts : List Node) :
    embeddedInBody field parts =
      match parts.find? (·.kind == .nestedField) with
      | none => []
      | some body => ofBody field body.children :: embeddedIn body.children := by
  induction parts with
  | nil => rw [embeddedInBody, List.find?_nil]
  | cons part rest ih =>
      obtain ⟨k, text, span, body⟩ := part
      by_cases nested : k = .nestedField
      · subst nested
        rw [embeddedInBody, List.find?_cons_of_pos rfl]
      · rw [embeddedInBody, ih, List.find?_cons_of_neg]
        · simpa using nested
        · simp [nested]

/-- The embedded entities are those of the first nested body of every field, each followed by the
entities that are embedded in it. -/
theorem embeddedIn_eq (ns : List Node) :
    embeddedIn ns = (ns.filter (·.kind == .field)).flatMap fun n =>
      match n.child .nestedField with
      | none => []
      | some body => ofBody (Field.ofNode n) body.children :: embeddedIn body.children := by
  induction ns with
  | nil => rw [embeddedIn, List.filter_nil, List.flatMap_nil]
  | cons n rest ih =>
      by_cases isField : n.kind = .field
      · rw [embeddedIn_cons_of_field isField, ih, List.filter_cons_of_pos (by simp [isField]),
          List.flatMap_cons]
        congr 1
        obtain ⟨k, text, span, parts⟩ := n
        rw [embeddedInField, embeddedInBody_eq, Node.child]
      · rw [embeddedIn_cons_of_ne isField, ih, List.filter_cons_of_neg (by simp [isField])]

end Entity

namespace Section

/-- The kind of the declarations of a part. -/
def kind : Section → Node.Kind
  | .entities => .entity
  | .events => .event
  | .inputs => .input

/-- The kind of the names of these declarations. -/
def nameKind : Section → Node.Kind
  | .entities => .entityName
  | .events => .eventName
  | .inputs => .inputName

/-- The entities of a declaration, its own one first; there are none if it has no name. -/
def declaration (part : Section) (n : Node) : List Entity :=
  match n.child part.nameKind with
  | none => []
  | some name => Entity.ofDeclaration n name.text :: Entity.embeddedIn n.children

/-- The entities that a tree declares for a part, in the order of the source. -/
def declared (part : Section) (tree : Node) : List Entity :=
  (tree.childrenOf part.kind).flatMap part.declaration

end Section

/-! ## Fields and nested bodies -/

namespace EntityBuilder.Shows

variable {part : Section}

mutual

theorem addField (n : Node) {b : EntityBuilder} {document : EntityDocument} {record : Entity}
    {shadowed : Bool} {outer : List (Entity × Bool)}
    (shows : Shows b part document ((record, shadowed) :: outer)) :
    Shows (b.addField n) part (document.putEntities part (Entity.embeddedInField n))
      (shadowAll (named (Entity.embeddedInField n))
        ((record.withFields [((Field.ofNode n).name, Field.ofNode n)], shadowed) :: outer)) := by
  obtain ⟨k, text, span, parts⟩ := n
  rw [EntityBuilder.addField, Entity.embeddedInField]
  exact addEmbedded (Field.ofNode ⟨k, text, span, parts⟩) parts (shows.addField? _)

theorem addEmbedded (field : Field) (parts : List Node) {b : EntityBuilder}
    {document : EntityDocument} {record : Entity} {shadowed : Bool} {outer : List (Entity × Bool)}
    (shows : Shows b part document ((record, shadowed) :: outer)) :
    Shows (EntityBuilder.addEmbedded field parts b) part
      (document.putEntities part (Entity.embeddedInBody field parts))
      (shadowAll (named (Entity.embeddedInBody field parts)) ((record, shadowed) :: outer)) := by
  match parts with
  | [] =>
      rw [EntityBuilder.addEmbedded, Entity.embeddedInBody, EntityDocument.putEntities_nil,
        shadowAll_named_nil]
      exact shows
  | ⟨k, text, span, body⟩ :: rest =>
      by_cases nested : k = .nestedField
      · subst nested
        rw [EntityBuilder.addEmbedded, Entity.embeddedInBody, shows.currentPart]
        have opened := (shows.locate (part.key ++ "." ++ field.type) span).enterEntity
          (embeddedEntity field body)
        exact (addFields body opened).close (embeddedEntity field body)
      · rw [EntityBuilder.addEmbedded, Entity.embeddedInBody]
        · exact addEmbedded field rest shows
        · simp [nested]
        · simp [nested]

theorem addFields (ns : List Node) {b : EntityBuilder} {document : EntityDocument}
    {record : Entity} {shadowed : Bool} {outer : List (Entity × Bool)}
    (shows : Shows b part document ((record, shadowed) :: outer)) :
    Shows (EntityBuilder.addFields ns b) part
      (document.putEntities part (Entity.embeddedIn ns))
      (shadowAll (named (Entity.embeddedIn ns))
        ((record.withFields (Field.entriesOf ns), shadowed) :: outer)) := by
  match ns with
  | [] =>
      rw [EntityBuilder.addFields, Entity.embeddedIn, EntityDocument.putEntities_nil,
        shadowAll_named_nil]
      exact shows
  | n :: rest =>
      rw [EntityBuilder.addFields]
      by_cases isField : n.kind = .field
      · rw [isField, Field.entriesOf_cons_of_field isField, Entity.embeddedIn_cons_of_field isField,
          ← EntityDocument.putEntities_putEntities, shadowAll_named_append]
        exact addFields rest (addField n shows)
      · rw [Field.entriesOf_cons_of_ne isField, Entity.embeddedIn_cons_of_ne isField]
        apply addFields rest
        split
        · exact absurd ‹_› isField
        · exact shows.skip n .fieldList
        · exact shows

end

/-- A declaration puts its entities into its part. -/
theorem addEntity {b : EntityBuilder} {document : EntityDocument}
    (shows : Shows b part document []) (n : Node) :
    Shows (b.addEntity part part.nameKind n) part
      (document.putEntities part (part.declaration n)) [] := by
  rw [EntityBuilder.addEntity, Section.declaration]
  cases n.child part.nameKind with
  | none =>
      rw [EntityDocument.putEntities_nil]
      exact shows.skip n part.context
  | some name =>
      have located : Shows (b.locateNamed (part.key ++ "." ++ name.text) n name) part document [] :=
        (shows.locate _ name.span).locate _ n.span
      have opened := (located.enterEntity (declaredEntity n name.text)).applyOptions n
      exact (addFields n.children opened).close
        ((declaredEntity n name.text).withOptions n.options)

end EntityBuilder.Shows

namespace EntityBuilder

/-! ## Declarations without entities -/

/-- A step that puts no entity and leaves open what was open. -/
structure Keeps (before after : EntityBuilder) : Prop where
  entities : ∀ part, after.document.entitiesOf part = before.document.entitiesOf part
  parts : after.scope.frames.map EntityFrame.part? = before.scope.frames.map EntityFrame.part?

namespace Keeps

variable {before middle after : EntityBuilder}

theorem refl (b : EntityBuilder) : Keeps b b := ⟨fun _ => rfl, rfl⟩

theorem trans (first : Keeps before middle) (second : Keeps middle after) : Keeps before after :=
  ⟨fun part => (second.entities part).trans (first.entities part),
    second.parts.trans first.parts⟩

theorem skip (b : EntityBuilder) (n : Node) (context : Context) : Keeps b (b.skip n context) :=
  ⟨fun _ => rfl, rfl⟩

theorem locateNamed (b : EntityBuilder) (path : String) (n name : Node) :
    Keeps b (b.locateNamed path n name) :=
  ⟨fun _ => rfl, rfl⟩

/-- Steps of a walk that keep the entities make a walk that keeps them. -/
theorem foldl {α : Type} {step : EntityBuilder → α → EntityBuilder}
    (each : ∀ b item, Keeps b (step b item)) (items : List α) (b : EntityBuilder) :
    Keeps b (items.foldl step b) := by
  induction items generalizing b with
  | nil => exact refl b
  | cons item rest ih => exact (each b item).trans (ih (step b item))

theorem changeTop {change : EntityFrame → EntityFrame}
    (same : ∀ frame, (change frame).part? = frame.part?) (b : EntityBuilder) :
    Keeps b (b.changeTop change) := by
  refine ⟨fun _ => rfl, ?_⟩
  rw [EntityBuilder.changeTop, Scope.changeTop]
  cases b.scope.frames with
  | nil => rfl
  | cons frame outer => simp [same]

theorem changeNearest {change : EntityFrame → Option EntityFrame}
    (same : ∀ frame changed, change frame = some changed → changed.part? = frame.part?)
    (b : EntityBuilder) : Keeps b (b.changeNearest change) := by
  refine ⟨fun _ => rfl, ?_⟩
  rw [EntityBuilder.changeNearest, Scope.changeNearest, Scope.changeNearest?]
  cases found : Scope.changeFirst? change b.scope.frames with
  | none => rfl
  | some frames => exact Scope.map_changeFirst? same found

theorem applyOptions (b : EntityBuilder) (n : Node) : Keeps b (b.applyOptions n) :=
  foldl (fun b option => changeTop (fun frame => by cases frame <;> rfl) b) n.options b

theorem skipErrors (b : EntityBuilder) (context : Context) (ns : List Node) :
    Keeps b (b.skipErrors context ns) :=
  foldl (fun b n => skip b n context) _ b

/-- A record that is no entity is put to where it belongs. -/
theorem register {frame : EntityFrame} (other : frame.part? = none) (b : EntityBuilder) :
    Keeps b (b.register frame) := by
  cases frame with
  | entity part record shadowed => cases other
  | enum record => exact ⟨fun part => by cases part <;> rfl, rfl⟩
  | service record => exact ⟨fun part => by cases part <;> rfl, rfl⟩
  | method record =>
      refine changeNearest (fun frame changed found => ?_) b
      cases frame <;> cases found
      rfl

/-- A frame that holds no entity is opened and closed. -/
theorem exit {frame : EntityFrame} (inside : Keeps (before.enter frame) after)
    (other : frame.part? = none) : Keeps before after.exit := by
  have parts : after.scope.frames.map EntityFrame.part? =
      none :: before.scope.frames.map EntityFrame.part? := by
    rw [inside.parts, ← other]
    rfl
  obtain ⟨top, outer, frames, isNone, rest⟩ := List.map_eq_cons_iff.mp parts
  have closed : after.scope.exit = (some top, ⟨outer⟩) := by
    rw [Scope.exit, frames]
    rfl
  have popped : Keeps before { after with scope := ⟨outer⟩ } := ⟨inside.entities, rest⟩
  rw [EntityBuilder.exit, closed]
  exact popped.trans (register isNone _)

end Keeps

section Steps

variable (b : EntityBuilder) (n : Node)

theorem keeps_addEnumPart : Keeps b (b.addEnumPart n) := by
  unfold addEnumPart
  split
  · unfold addEnumValue
    split
    · exact .refl b
    · exact .changeTop (fun frame => by cases frame <;> rfl) b
  · exact .skip b n _
  · exact .refl b

theorem keeps_addEnum : Keeps b (b.addEnum n) := by
  unfold addEnum
  split
  · exact .skip b n _
  · exact (Keeps.locateNamed b _ n _).trans
      (.exit ((Keeps.applyOptions _ n).trans (.foldl keeps_addEnumPart _ _)) rfl)

theorem keeps_addRelationship (kind : String) : Keeps b (b.addRelationship kind n) := by
  unfold addRelationship
  split
  · exact .skip b n _
  · exact ⟨fun part => by cases part <;> rfl, rfl⟩

theorem keeps_addRelationships : Keeps b (b.addRelationships n) := by
  refine .foldl (fun b part => ?_) n.children b
  unfold addRelationshipPart
  split
  · exact keeps_addRelationship b part _
  · exact .skip b part _
  · exact .refl b

theorem keeps_addMethod (service : String) : Keeps b (addMethod service b n) := by
  unfold addMethod
  split
  · exact .refl b
  · exact (Keeps.locateNamed b _ n _).trans
      (.exit ((Keeps.applyOptions _ n).trans (.skipErrors _ _ _)) rfl)

theorem keeps_addMethods (service : String) (aggregates : List String) :
    Keeps b (b.addMethods n service aggregates) := by
  unfold addMethods
  split
  · exact .foldl (fun b method => .register rfl b) _ b
  · exact .foldl (fun b declared => keeps_addMethod b declared service) _ b

theorem keeps_addService : Keeps b (b.addService n) := by
  unfold addService
  split
  · exact .skip b n _
  · exact (Keeps.locateNamed b _ n _).trans
      (.exit ((Keeps.applyOptions _ n).trans
        ((keeps_addMethods _ n _ _).trans (.skipErrors _ _ _))) rfl)

theorem keeps_addConstant : Keeps b (b.addConstant n) := by
  unfold addConstant
  split
  · exact .refl b
  · exact ⟨fun part => by cases part <;> rfl, rfl⟩

/-- A top-level node that is a declaration of no part puts no entity. -/
theorem keeps_addTopLevel (other : ∀ part : Section, n.kind ≠ part.kind) :
    Keeps b (b.addTopLevel n) := by
  unfold addTopLevel
  split
  · exact ⟨fun part => by cases part <;> rfl, rfl⟩
  · exact keeps_addConstant b n
  · exact absurd ‹_› (other .entities)
  · exact absurd ‹_› (other .events)
  · exact absurd ‹_› (other .inputs)
  · exact keeps_addEnum b n
  · exact keeps_addRelationships b n
  · exact keeps_addService b n
  · exact keeps_addService b n
  · exact .skip b n _

end Steps

/-! ## Documents -/

theorem addTopLevel_declaration (b : EntityBuilder) {n : Node} {part : Section}
    (declares : n.kind = part.kind) : b.addTopLevel n = b.addEntity part part.nameKind n := by
  cases part <;> simp [addTopLevel, declares, Section.kind, Section.nameKind]

/-- A top-level node puts the entities that it declares, and leaves nothing open. -/
theorem entitiesOf_addTopLevel {b : EntityBuilder} (closed : b.scope.frames = []) (n : Node) :
    (b.addTopLevel n).scope.frames = [] ∧ ∀ part : Section,
      (b.addTopLevel n).document.entitiesOf part = (b.document.entitiesOf part).putAll
        ((if n.kind = part.kind then part.declaration n else []).map Entity.entry) := by
  by_cases declares : ∃ part : Section, n.kind = part.kind
  · obtain ⟨part, declares⟩ := declares
    have shows : Shows b part b.document [] := ⟨rfl, closed⟩
    have added := shows.addEntity n
    rw [addTopLevel_declaration b declares]
    refine ⟨added.frames, fun other => ?_⟩
    rw [added.document, EntityDocument.putEntities, EntityDocument.entitiesOf_changePart, declares]
    -- a declaration is of one part, and the other parts stay as they were
    by_cases same : other = part
    · rw [if_pos same, same, if_pos rfl]
    · have different : part.kind ≠ other.kind := by
        cases part <;> cases other <;> simp [Section.kind] at same ⊢
      rw [if_neg same, if_neg different]
      rfl
  · have kept := keeps_addTopLevel b n fun part equal => declares ⟨part, equal⟩
    constructor
    · have parts := kept.parts
      rw [closed] at parts
      exact List.map_eq_nil_iff.mp parts
    · intro part
      rw [kept.entities part, if_neg fun equal => declares ⟨part, equal⟩]
      rfl

theorem entitiesOf_foldl_addTopLevel (ns : List Node) {b : EntityBuilder}
    (closed : b.scope.frames = []) (part : Section) :
    (ns.foldl addTopLevel b).document.entitiesOf part = (b.document.entitiesOf part).putAll
      (((ns.filter (·.kind == part.kind)).flatMap part.declaration).map Entity.entry) := by
  induction ns generalizing b with
  | nil => rfl
  | cons n rest ih =>
      obtain ⟨closedNext, added⟩ := entitiesOf_addTopLevel closed n
      rw [List.foldl_cons, ih closedNext, added part]
      by_cases declares : n.kind = part.kind
      · simp [declares]
      · simp [declares]

/-- A part of a document is what putting the declared entities of the tree in order gives. -/
theorem entitiesOf_ofTree (tree : Node) (part : Section) :
    (ofTree tree).document.entitiesOf part =
      OrderedMap.ofEntries ((part.declared tree).map Entity.entry) := by
  rw [ofTree, entitiesOf_foldl_addTopLevel tree.children rfl part]
  cases part <;> rfl

end EntityBuilder

theorem EntityDocument.get?_toValue (d : EntityDocument) (part : Section) :
    d.toValue.get? part.key = some (.mapping ((d.entitiesOf part).mapValues Entity.toValue)) := by
  obtain ⟨documentation, _⟩ := d
  cases documentation <;> cases part <;> rfl

/-- **The parts of a document are the declared entities of its tree.** Each part holds, under their
own names, the entities that the tree declares for it, put one after the other in the order of the
source; and it holds nothing else. -/
theorem Model.ofEntityTree_sections (tree : Node) (part : Section) :
    (EntityBuilder.ofTree tree).document.entitiesOf part =
        OrderedMap.ofEntries ((part.declared tree).map fun e => (e.name, e)) ∧
      (Model.ofEntityTree tree).document.get? part.key =
        some (.mapping ((OrderedMap.ofEntries
          ((part.declared tree).map fun e => (e.name, e))).mapValues Entity.toValue)) ∧
      ∀ entry ∈ (EntityBuilder.ofTree tree).document.entitiesOf part,
        entry.1 = entry.2.name ∧ entry.2 ∈ part.declared tree := by
  have sections := EntityBuilder.entitiesOf_ofTree tree part
  refine ⟨sections, ?_, fun entry member => ?_⟩
  · rw [Model.ofEntityTree, EntityBuilder.model, EntityDocument.get?_toValue, sections]
    rfl
  · rw [sections] at member
    obtain ⟨e, declared, rfl⟩ := List.mem_map.mp (OrderedMap.mem_ofEntries member)
    exact ⟨rfl, declared⟩

namespace EntityBuilder

/-- A field with two nested bodies, which no source has. -/
def fieldWithBodies : Node :=
  let node (kind : Node.Kind) (text : String) := Node.mk kind text ⟨0, 0, 0, 0, 0, 0⟩
  node .field ""
    [node .fieldName "f" [], node .fieldType "" [node .id "B" []], node .nestedField "" [],
      node .nestedField "" [node .tableName "t" []]]

/-- A tree with this field in its only entity. -/
def treeWithBodies : Node :=
  let node (kind : Node.Kind) (text : String) := Node.mk kind text ⟨0, 0, 0, 0, 0, 0⟩
  node .zdl "" [node .entity "" [node .entityName "A" [], fieldWithBodies]]

end EntityBuilder

/-- A second nested body of a field is not put after the first one. -/
theorem Model.ofEntityTree_two_bodies :
    (EntityBuilder.ofTree EntityBuilder.treeWithBodies).document.entities ≠
      OrderedMap.ofEntries
        [("A", { Entity.named "A" with
            fields := [("f", Field.ofNode EntityBuilder.fieldWithBodies)] }),
          ("B", { Entity.named "B" with options := [("embedded", .boolean true)] }),
          ("B", { Entity.named "B" with
            options := [("embedded", .boolean true)], tableName := some "t" })] := by
  intro equal
  have tables := congrArg (fun m => (OrderedMap.value? m "B").map (·.tableName)) equal
  have first : ((EntityBuilder.ofTree EntityBuilder.treeWithBodies).document.entities.value?
      "B").map (·.tableName) = some none := by
    decide +kernel
  rw [first] at tables
  exact absurd tables (by decide +kernel)

end EntityFlow
