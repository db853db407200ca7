import EntityFlow.Proofs.Document.Sections

/-!
# The enums, services and relationships of a document

Like the entities, the enums, the services and the relationships of a document are said by its tree
alone. Each top-level declaration adds its own records and leaves nothing open (`Adds`): so the
enums and the services are the declared ones put in order (`EntityBuilder.enums_ofTree`,
`EntityBuilder.services_ofTree`), and the relationships of a kind are those declared under it
(`EntityBuilder.relationshipsOf_ofTree`).
-/

namespace EntityFlow

/-! ## Declared enums -/

namespace Enum

/-- The enum under the key that it has in a document. -/
def entry (e : Enum) : String × Enum := (e.name, e)

/-- The enum with more options. -/
def withOptions (e : Enum) (options : List (String × Value)) : Enum :=
  { e with options := e.options.putAll options }

/-- The enum with more values. -/
def withValues (e : Enum) (values : List EnumValue) : Enum :=
  { e with values := e.values.putAll (values.map fun v => (v.name, v)) }

theorem withValues_append (e : Enum) (first second : List EnumValue) :
    e.withValues (first ++ second) = (e.withValues first).withValues second := by
  rw [withValues, List.map_append, OrderedMap.putAll_append]
  rfl

/-- The value that a part of an enum declares, if it is one with a name. -/
def valueOf? (n : Node) : Option EnumValue :=
  if n.kind = .enumValue then
    (n.childText .enumValueName).map fun name =>
      ⟨name, n.documentation?, (n.child .enumValueValue).map Node.toValue⟩
  else none

/-- The enum of a declaration with a name. -/
def ofDeclaration (n : Node) (name : String) : Enum :=
  { Enum.named name with
    documentation := n.documentation?
    options := OrderedMap.ofEntries n.options
    values := OrderedMap.ofEntries ((n.children.filterMap valueOf?).map fun v => (v.name, v)) }

/-- The enums that some nodes declare, in order; a declaration without a name declares none. -/
def declaredIn (ns : List Node) : List Enum :=
  (ns.filter (·.kind == .enum)).filterMap fun n =>
    (n.child .enumName).map fun name => ofDeclaration n name.text

theorem declaredIn_append (first second : List Node) :
    declaredIn (first ++ second) = declaredIn first ++ declaredIn second := by
  rw [declaredIn, List.filter_append, List.filterMap_append]
  rfl

theorem declaredIn_singleton {n : Node} (isEnum : n.kind = .enum) :
    declaredIn [n] = ((n.child .enumName).map fun name => ofDeclaration n name.text).toList := by
  rw [declaredIn, List.filter_cons_of_pos (by simp [isEnum]), List.filterMap_cons]
  cases n.child .enumName <;> rfl

theorem declaredIn_of_ne {n : Node} (other : n.kind ≠ .enum) : declaredIn [n] = [] := by
  rw [declaredIn, List.filter_cons_of_neg (by simpa using other)]
  rfl

end Enum

/-! ## Declared services -/

namespace Method

/-- The method under the key that it has in a service. -/
def entry (m : Method) : String × Method := (m.name, m)

/-- The method with more options. -/
def withOptions (m : Method) (options : List (String × Value)) : Method :=
  options.foldl (fun m option => m.addOption option.1 option.2) m

/-- The method of a declaration with a name. -/
def ofDeclaration (n : Node) (name : String) : Method :=
  (EntityBuilder.declaredMethod n name).withOptions n.options

end Method

/-- Whether a node declares a service. -/
def Node.declaresService (n : Node) : Bool := n.kind == .service || n.kind == .serviceLegacy

namespace Service

/-- The service under the key that it has in a document. -/
def entry (s : Service) : String × Service := (s.name, s)

/-- The service with more options. -/
def withOptions (s : Service) (options : List (String × Value)) : Service :=
  { s with options := s.options.putAll options }

/-- The service with more methods. -/
def withMethods (s : Service) (methods : List Method) : Service :=
  { s with methods := s.methods.putAll (methods.map Method.entry) }

theorem withMethods_append (s : Service) (first second : List Method) :
    s.withMethods (first ++ second) = (s.withMethods first).withMethods second := by
  rw [withMethods, List.map_append, OrderedMap.putAll_append]
  rfl

/-- The entities of a service declaration. -/
def aggregatesOf (n : Node) : List String :=
  ((n.child .serviceAggregates).map (·.children.map (·.text))).getD []

/-- The methods that a node in a service declares: one, or none if it has no name. -/
def methodOf? (n : Node) : Option Method :=
  (n.child .serviceMethodName).map fun name => Method.ofDeclaration n name.text

/-- The methods of a service declaration with a name: those declared, or else those implied. -/
def methodsOf (n : Node) (name : String) : List Method :=
  match n.childrenOf .serviceMethod with
  | [] => EntityBuilder.impliedMethods n name (aggregatesOf n)
  | declared => declared.filterMap methodOf?

/-- The service of a declaration with a name. -/
def ofDeclaration (n : Node) (name : String) : Service :=
  { Service.named name with
    documentation := n.documentation?
    aggregates := aggregatesOf n
    options := OrderedMap.ofEntries n.options
    methods := OrderedMap.ofEntries ((methodsOf n name).map Method.entry) }

/-- The services that some nodes declare, in order; a declaration without a name declares none. -/
def declaredIn (ns : List Node) : List Service :=
  (ns.filter Node.declaresService).filterMap fun n =>
    (n.child .serviceName).map fun name => ofDeclaration n name.text

theorem declaredIn_append (first second : List Node) :
    declaredIn (first ++ second) = declaredIn first ++ declaredIn second := by
  rw [declaredIn, List.filter_append, List.filterMap_append]
  rfl

theorem declaredIn_singleton {n : Node} (service : n.declaresService) :
    declaredIn [n] =
      ((n.child .serviceName).map fun name => ofDeclaration n name.text).toList := by
  rw [declaredIn, List.filter_cons_of_pos service, List.filterMap_cons]
  cases n.child .serviceName <;> rfl

theorem declaredIn_of_not {n : Node} (other : ¬ n.declaresService) : declaredIn [n] = [] := by
  rw [declaredIn, List.filter_cons_of_neg other]
  rfl

end Service

/-! ## Declared relationships -/

namespace Relationship

/-- The relationship under its key. -/
def entry (r : Relationship) : String × Relationship := (r.key, r)

/-- The relationships that a block declares. -/
def declaredInBlock (block : Node) : List Relationship :=
  (block.childrenOf .relationship).filterMap
    (EntityBuilder.relationship? ((block.childText .relationshipType).getD ""))

/-- The relationships that some nodes declare, in order. -/
def declaredIn (ns : List Node) : List Relationship :=
  (ns.filter (·.kind == .relationships)).flatMap declaredInBlock

theorem declaredIn_append (first second : List Node) :
    declaredIn (first ++ second) = declaredIn first ++ declaredIn second := by
  rw [declaredIn, List.filter_append, List.flatMap_append]
  rfl

theorem declaredIn_singleton {n : Node} (block : n.kind = .relationships) :
    declaredIn [n] = declaredInBlock n := by
  rw [declaredIn, List.filter_cons_of_pos (by simp [block]), List.filter_nil,
    List.flatMap_singleton]

theorem declaredIn_of_ne {n : Node} (other : n.kind ≠ .relationships) : declaredIn [n] = [] := by
  rw [declaredIn, List.filter_cons_of_neg (by simpa using other)]
  rfl

end Relationship

namespace EntityDocument

/-- The document with relationships put one after the other. -/
def putRelationships (d : EntityDocument) (rs : List Relationship) : EntityDocument :=
  rs.foldl putRelationship d

/-- The relationships of a kind. -/
def relationshipsOf (d : EntityDocument) (kind : String) : OrderedMap Relationship :=
  (d.relationships.value? kind).getD []

theorem relationshipsOf_putRelationship (d : EntityDocument) (r : Relationship) (kind : String) :
    (d.putRelationship r).relationshipsOf kind =
      if kind = r.kind then (d.relationshipsOf kind).put r.key r else d.relationshipsOf kind := by
  unfold putRelationship relationshipsOf
  rw [OrderedMap.value?_put]
  split
  · rename_i same
    rw [same, Option.getD_some]
  · rfl

/-- A relationship is put among those of its kind. -/
theorem relationshipsOf_putRelationships (d : EntityDocument) (rs : List Relationship)
    (kind : String) :
    (d.putRelationships rs).relationshipsOf kind =
      (d.relationshipsOf kind).putAll ((rs.filter (·.kind == kind)).map Relationship.entry) := by
  induction rs generalizing d with
  | nil => rfl
  | cons r rest ih =>
      rw [putRelationships, List.foldl_cons, ← putRelationships, ih,
        relationshipsOf_putRelationship]
      by_cases same : kind = r.kind
      · rw [if_pos same, List.filter_cons_of_pos (by simp [same])]
        rfl
      · rw [if_neg same, List.filter_cons_of_neg (by simpa using Ne.symm same)]

/-- The kinds that relationships have been put under. -/
theorem mem_keys_putRelationships {d : EntityDocument} {rs : List Relationship} {kind : String} :
    kind ∈ (d.putRelationships rs).relationships.keys ↔
      kind ∈ d.relationships.keys ∨ kind ∈ rs.map (·.kind) := by
  induction rs generalizing d with
  | nil => simp [putRelationships]
  | cons r rest ih =>
      rw [putRelationships, List.foldl_cons, ← putRelationships, ih, putRelationship,
        OrderedMap.mem_keys_put, List.map_cons, List.mem_cons]
      tauto

theorem putRelationships_append (d : EntityDocument) (first second : List Relationship) :
    d.putRelationships (first ++ second) = (d.putRelationships first).putRelationships second :=
  List.foldl_append

theorem putRelationships_relationships {d d' : EntityDocument}
    (same : d.relationships = d'.relationships) (rs : List Relationship) :
    (d.putRelationships rs).relationships = (d'.putRelationships rs).relationships := by
  induction rs generalizing d d' with
  | nil => exact same
  | cons r rest ih =>
      apply ih
      rw [putRelationship, putRelationship, same]

theorem changePart_enums (d : EntityDocument) (part : Section)
    (change : OrderedMap Entity → OrderedMap Entity) : (d.changePart part change).enums = d.enums := by
  cases part <;> rfl

theorem changePart_services (d : EntityDocument) (part : Section)
    (change : OrderedMap Entity → OrderedMap Entity) :
    (d.changePart part change).services = d.services := by
  cases part <;> rfl

theorem changePart_relationships (d : EntityDocument) (part : Section)
    (change : OrderedMap Entity → OrderedMap Entity) :
    (d.changePart part change).relationships = d.relationships := by
  cases part <;> rfl

end EntityDocument

namespace EntityBuilder

/-! ## Open declarations -/

/-- The builder has a document, and a declaration is open inside others. -/
structure Opened (b : EntityBuilder) (document : EntityDocument) (frame : EntityFrame)
    (outer : List EntityFrame) : Prop where
  document : b.document = document
  frames : b.scope.frames = frame :: outer

namespace Opened

variable {b : EntityBuilder} {document : EntityDocument} {frame : EntityFrame}
  {outer : List EntityFrame}

theorem enter (b : EntityBuilder) (frame : EntityFrame) :
    Opened (b.enter frame) b.document frame b.scope.frames :=
  ⟨rfl, rfl⟩

theorem skip (opened : Opened b document frame outer) (n : Node) (context : Context) :
    Opened (b.skip n context) document frame outer :=
  ⟨opened.document, opened.frames⟩

theorem skipErrors (opened : Opened b document frame outer) (context : Context) (ns : List Node) :
    Opened (b.skipErrors context ns) document frame outer := by
  rw [EntityBuilder.skipErrors]
  generalize ns.filter (·.kind == .error) = errors
  induction errors generalizing b with
  | nil => exact opened
  | cons n rest ih => exact ih (opened.skip n context)

theorem changeTop (opened : Opened b document frame outer) (change : EntityFrame → EntityFrame) :
    Opened (b.changeTop change) document (change frame) outer := by
  constructor
  · exact opened.document
  · rw [EntityBuilder.changeTop, Scope.changeTop, opened.frames]
    rfl

/-- Options go to the declaration that is open. -/
theorem applyOptions (opened : Opened b document frame outer) (n : Node) :
    Opened (b.applyOptions n) document (n.options.foldl EntityFrame.addOption frame) outer := by
  rw [EntityBuilder.applyOptions]
  generalize n.options = options
  induction options generalizing b frame with
  | nil => exact opened
  | cons option rest ih => exact ih (opened.changeTop (·.addOption option))

/-- Closing a declaration registers its record. -/
theorem exit (opened : Opened b document frame outer) :
    ∃ closed : EntityBuilder, closed.document = document ∧ closed.scope.frames = outer ∧
      b.exit = closed.register frame := by
  refine ⟨{ b with scope := ⟨outer⟩ }, opened.document, rfl, ?_⟩
  rw [EntityBuilder.exit, Scope.exit, opened.frames]
  rfl

end Opened

/-! ## Open services -/

theorem foldl_addOption_service (record : Service) (options : List (String × Value)) :
    options.foldl EntityFrame.addOption (.service record) =
      .service (record.withOptions options) := by
  induction options generalizing record with
  | nil => rfl
  | cons option rest ih => exact ih _

theorem foldl_addOption_method (record : Method) (options : List (String × Value)) :
    options.foldl EntityFrame.addOption (.method record) =
      .method (record.withOptions options) := by
  induction options generalizing record with
  | nil => rfl
  | cons option rest ih => exact ih _

theorem foldl_addOption_enum (record : Enum) (options : List (String × Value)) :
    options.foldl EntityFrame.addOption (.enum record) = .enum (record.withOptions options) := by
  induction options generalizing record with
  | nil => rfl
  | cons option rest ih => exact ih _

namespace Opened

variable {b : EntityBuilder} {document : EntityDocument} {record : Service}
  {outer : List EntityFrame}

/-- A method goes to the service that is open. -/
theorem registerMethod (opened : Opened b document (.service record) outer) (m : Method) :
    Opened (b.register (.method m)) document (.service (record.withMethods [m])) outer := by
  constructor
  · exact opened.document
  · rw [EntityBuilder.register, EntityBuilder.changeNearest, Scope.changeNearest,
      Scope.changeNearest?, opened.frames]
    rfl

theorem registerMethods (opened : Opened b document (.service record) outer)
    (methods : List Method) :
    Opened (methods.foldl (fun b m => b.register (.method m)) b) document
      (.service (record.withMethods methods)) outer := by
  induction methods generalizing b record with
  | nil => exact opened
  | cons m rest ih => exact ih (opened.registerMethod m)

/-- A declared method goes to the service that is open. -/
theorem addMethod (opened : Opened b document (.service record) outer) (service : String)
    (n : Node) :
    Opened (EntityBuilder.addMethod service b n) document
      (.service (record.withMethods (Service.methodOf? n).toList)) outer := by
  unfold EntityBuilder.addMethod Service.methodOf?
  cases n.child .serviceMethodName with
  | none => exact opened
  | some name =>
      have inside := ((Opened.enter
        (b.locateNamed ("services." ++ service ++ ".methods." ++ name.text) n name)
        (.method (declaredMethod n name.text))).applyOptions n).skipErrors .method n.children
      rw [foldl_addOption_method] at inside
      obtain ⟨closed, document, frames, exited⟩ := inside.exit
      simp only [exited]
      exact registerMethod ⟨document.trans opened.document, frames.trans opened.frames⟩ _

theorem addDeclared (opened : Opened b document (.service record) outer) (service : String)
    (ns : List Node) :
    Opened (ns.foldl (EntityBuilder.addMethod service) b) document
      (.service (record.withMethods (ns.filterMap Service.methodOf?))) outer := by
  induction ns generalizing b record with
  | nil => exact opened
  | cons n rest ih =>
      rw [List.filterMap_eq_flatMap_toList, List.flatMap_cons, ← List.filterMap_eq_flatMap_toList,
        Service.withMethods_append]
      exact ih (opened.addMethod service n)

/-- The service that is open gets the methods that its declaration says. -/
theorem addMethods (opened : Opened b document (.service record) outer) (n : Node)
    (service : String) :
    Opened (b.addMethods n service (Service.aggregatesOf n)) document
      (.service (record.withMethods (Service.methodsOf n service))) outer := by
  unfold EntityBuilder.addMethods Service.methodsOf
  cases n.childrenOf .serviceMethod with
  | nil => exact opened.registerMethods _
  | cons m rest => exact opened.addDeclared service (m :: rest)

end Opened

/-! ## Top-level declarations -/

/-- That a step puts some enums, services and relationships and leaves nothing open. -/
structure Adds (before after : EntityBuilder) (es : List Enum) (ss : List Service)
    (rs : List Relationship) : Prop where
  closed : after.scope.frames = []
  enums : after.document.enums = before.document.enums.putAll (es.map Enum.entry)
  services : after.document.services = before.document.services.putAll (ss.map Service.entry)
  relationships :
    after.document.relationships = (before.document.putRelationships rs).relationships

namespace Adds

variable {b middle after : EntityBuilder} {es es' : List Enum} {ss ss' : List Service}
  {rs rs' : List Relationship}

theorem of_document (closed : after.scope.frames = [])
    (enums : after.document.enums = b.document.enums)
    (services : after.document.services = b.document.services)
    (relationships : after.document.relationships = b.document.relationships) :
    Adds b after [] [] [] :=
  ⟨closed, enums, services, relationships⟩

theorem trans (first : Adds b middle es ss rs) (second : Adds middle after es' ss' rs') :
    Adds b after (es ++ es') (ss ++ ss') (rs ++ rs') := by
  refine ⟨second.closed, ?_, ?_, ?_⟩
  · rw [second.enums, first.enums, List.map_append, OrderedMap.putAll_append]
  · rw [second.services, first.services, List.map_append, OrderedMap.putAll_append]
  · rw [second.relationships, b.document.putRelationships_append]
    exact EntityDocument.putRelationships_relationships first.relationships rs'

end Adds

variable {b : EntityBuilder}

theorem adds_addEntity (closed : b.scope.frames = []) (part : Section) (n : Node) :
    Adds b (b.addEntity part part.nameKind n) [] [] [] := by
  have shows : Shows b part b.document [] := ⟨rfl, closed⟩
  have added := shows.addEntity n
  refine .of_document added.frames ?_ ?_ ?_
  · rw [added.document, EntityDocument.putEntities, EntityDocument.changePart_enums]
  · rw [added.document, EntityDocument.putEntities, EntityDocument.changePart_services]
  · rw [added.document, EntityDocument.putEntities, EntityDocument.changePart_relationships]

/-- A part of an enum goes to the enum that is open. -/
theorem Opened.addEnumPart {record : Enum} {document : EntityDocument} {outer : List EntityFrame}
    (opened : Opened b document (.enum record) outer) (n : Node) :
    Opened (b.addEnumPart n) document (.enum (record.withValues (Enum.valueOf? n).toList)) outer := by
  unfold EntityBuilder.addEnumPart EntityBuilder.addEnumValue Enum.valueOf?
  split <;> rename_i known
  · rw [if_pos known]
    cases n.childText .enumValueName with
    | none => exact opened
    | some name => exact opened.changeTop _
  · rw [known, if_neg (by decide)]
    exact opened.skip n _
  · rw [if_neg ‹_›]
    exact opened

theorem Opened.addEnumParts {record : Enum} {document : EntityDocument} {outer : List EntityFrame}
    (opened : Opened b document (.enum record) outer) (ns : List Node) :
    Opened (ns.foldl EntityBuilder.addEnumPart b) document
      (.enum (record.withValues (ns.filterMap Enum.valueOf?))) outer := by
  induction ns generalizing b record with
  | nil => exact opened
  | cons n rest ih =>
      rw [List.filterMap_eq_flatMap_toList, List.flatMap_cons, ← List.filterMap_eq_flatMap_toList,
        Enum.withValues_append]
      exact ih (opened.addEnumPart n)

theorem adds_addEnum (closed : b.scope.frames = []) (n : Node) :
    Adds b (b.addEnum n)
      ((n.child .enumName).map fun name => Enum.ofDeclaration n name.text).toList [] [] := by
  unfold addEnum
  cases n.child .enumName with
  | none => exact .of_document closed rfl rfl rfl
  | some name =>
      have opened := (Opened.enter (b.locateNamed ("enums." ++ name.text) n name)
        (.enum { Enum.named name.text with documentation := n.documentation? })).applyOptions n
      rw [foldl_addOption_enum] at opened
      have filled := opened.addEnumParts n.children
      obtain ⟨before, document, frames, exited⟩ := filled.exit
      simp only [exited]
      refine ⟨frames.trans closed, ?_, congrArg (·.services) document,
        congrArg (·.relationships) document⟩
      rw [EntityBuilder.register, document]
      rfl

theorem adds_addRelationship (closed : b.scope.frames = []) (kind : String) (n : Node) :
    Adds b (b.addRelationship kind n) [] [] (relationship? kind n).toList := by
  unfold addRelationship
  cases relationship? kind n with
  | none => exact .of_document closed rfl rfl rfl
  | some r => exact ⟨closed, rfl, rfl, rfl⟩

theorem adds_addRelationshipParts (kind : String) (ns : List Node) {b : EntityBuilder}
    (closed : b.scope.frames = []) :
    Adds b (ns.foldl (addRelationshipPart kind) b) [] []
      ((ns.filter (·.kind == .relationship)).filterMap (relationship? kind)) := by
  induction ns generalizing b with
  | nil => exact .of_document closed rfl rfl rfl
  | cons n rest ih =>
      rw [List.foldl_cons]
      by_cases declares : n.kind = .relationship
      · have first := adds_addRelationship closed kind n
        have step : addRelationshipPart kind b n = b.addRelationship kind n := by
          rw [addRelationshipPart, declares]
        rw [step, List.filter_cons_of_pos (by simp [declares]), List.filterMap_eq_flatMap_toList,
          List.flatMap_cons, ← List.filterMap_eq_flatMap_toList]
        exact first.trans (ih first.closed)
      · have first : Adds b (addRelationshipPart kind b n) [] [] [] := by
          unfold addRelationshipPart
          split
          · exact absurd ‹_› declares
          · exact .of_document closed rfl rfl rfl
          · exact .of_document closed rfl rfl rfl
        rw [List.filter_cons_of_neg (by simpa using declares)]
        exact first.trans (ih first.closed)

theorem adds_addRelationships (closed : b.scope.frames = []) (n : Node) :
    Adds b (b.addRelationships n) [] [] (Relationship.declaredInBlock n) :=
  adds_addRelationshipParts _ n.children closed

theorem adds_addService (closed : b.scope.frames = []) (n : Node) :
    Adds b (b.addService n) []
      ((n.child .serviceName).map fun name => Service.ofDeclaration n name.text).toList [] := by
  unfold addService
  cases n.child .serviceName with
  | none => exact .of_document closed rfl rfl rfl
  | some name =>
      have opened := (Opened.enter (b.locateNamed ("services." ++ name.text) n name)
        (.service { Service.named name.text with
          documentation := n.documentation?, aggregates := Service.aggregatesOf n })).applyOptions n
      rw [foldl_addOption_service] at opened
      have filled := (opened.addMethods n name.text).skipErrors .service n.children
      obtain ⟨before, document, frames, exited⟩ := filled.exit
      unfold Service.aggregatesOf at exited
      simp only [exited]
      refine ⟨frames.trans closed, congrArg (·.enums) document, ?_,
        congrArg (·.relationships) document⟩
      rw [EntityBuilder.register, document]
      rfl

/-- A top-level node puts the enums, services and relationships that it declares. -/
theorem adds_addTopLevel (closed : b.scope.frames = []) (n : Node) :
    Adds b (b.addTopLevel n) (Enum.declaredIn [n]) (Service.declaredIn [n])
      (Relationship.declaredIn [n]) := by
  by_cases service : n.declaresService
  · have step : b.addTopLevel n = b.addService n := by
      rcases Bool.or_eq_true_iff.mp service with kind | kind <;>
        simp [addTopLevel, beq_iff_eq.mp kind]
    have noBlock : n.kind ≠ .relationships := by
      intro block
      simp [Node.declaresService, block] at service
    have noEnum : n.kind ≠ .enum := by
      intro isEnum
      simp [Node.declaresService, isEnum] at service
    rw [step, Service.declaredIn_singleton service, Relationship.declaredIn_of_ne noBlock,
      Enum.declaredIn_of_ne noEnum]
    exact adds_addService closed n
  · have others : n.kind ≠ .service ∧ n.kind ≠ .serviceLegacy := by
      simpa [Node.declaresService, not_or] using service
    rw [Service.declaredIn_of_not service]
    by_cases block : n.kind = .relationships
    · have step : b.addTopLevel n = b.addRelationships n := by
        simp [addTopLevel, block]
      have noEnum : n.kind ≠ .enum := by
        rw [block]
        decide
      rw [step, Relationship.declaredIn_singleton block, Enum.declaredIn_of_ne noEnum]
      exact adds_addRelationships closed n
    · rw [Relationship.declaredIn_of_ne block]
      by_cases isEnum : n.kind = .enum
      · have step : b.addTopLevel n = b.addEnum n := by
          simp [addTopLevel, isEnum]
        rw [step, Enum.declaredIn_singleton isEnum]
        exact adds_addEnum closed n
      · -- all others write to other parts of the document
        rw [Enum.declaredIn_of_ne isEnum]
        unfold addTopLevel
        split
        · exact .of_document closed rfl rfl rfl
        · unfold addConstant
          split <;> exact .of_document closed rfl rfl rfl
        · exact adds_addEntity closed .entities n
        · exact adds_addEntity closed .events n
        · exact adds_addEntity closed .inputs n
        · exact absurd ‹_› isEnum
        · exact absurd ‹_› block
        · exact absurd ‹_› others.1
        · exact absurd ‹_› others.2
        · exact .of_document closed rfl rfl rfl

theorem adds_foldl_addTopLevel (ns : List Node) {b : EntityBuilder} (closed : b.scope.frames = []) :
    Adds b (ns.foldl addTopLevel b) (Enum.declaredIn ns) (Service.declaredIn ns)
      (Relationship.declaredIn ns) := by
  induction ns generalizing b with
  | nil => exact .of_document closed rfl rfl rfl
  | cons n rest ih =>
      have first := adds_addTopLevel closed n
      rw [List.foldl_cons, ← List.singleton_append, Enum.declaredIn_append,
        Service.declaredIn_append, Relationship.declaredIn_append]
      exact first.trans (ih first.closed)

/-! ## Documents -/

/-- **The enums of a document are the declared ones**, put one after the other under their names. -/
theorem enums_ofTree (tree : Node) :
    (ofTree tree).document.enums =
      OrderedMap.ofEntries ((Enum.declaredIn tree.children).map Enum.entry) :=
  (adds_foldl_addTopLevel tree.children rfl).enums

/-- **The services of a document are the declared ones**, put one after the other under their
names. -/
theorem services_ofTree (tree : Node) :
    (ofTree tree).document.services =
      OrderedMap.ofEntries ((Service.declaredIn tree.children).map Service.entry) :=
  (adds_foldl_addTopLevel tree.children rfl).services

/-- **The relationships of a kind in a document are those declared under it**, put one after the
other under their keys. -/
theorem relationshipsOf_ofTree (tree : Node) (kind : String) :
    (ofTree tree).document.relationshipsOf kind = OrderedMap.ofEntries
      (((Relationship.declaredIn tree.children).filter (·.kind == kind)).map
        Relationship.entry) := by
  have added := (adds_foldl_addTopLevel tree.children (b := {}) rfl).relationships
  rw [EntityDocument.relationshipsOf, ofTree, added, ← EntityDocument.relationshipsOf,
    EntityDocument.relationshipsOf_putRelationships]
  rfl

/-- A document has relationships of the kinds under which some are declared. -/
theorem mem_keys_relationships_ofTree {tree : Node} {kind : String} :
    kind ∈ (ofTree tree).document.relationships.keys ↔
      kind ∈ (Relationship.declaredIn tree.children).map (·.kind) := by
  have added := (adds_foldl_addTopLevel tree.children (b := {}) rfl).relationships
  rw [ofTree, added, EntityDocument.mem_keys_putRelationships]
  exact or_iff_right List.not_mem_nil

end EntityBuilder

namespace EntityDocument

theorem get?_enums (d : EntityDocument) :
    d.toValue.get? "enums" = some (.mapping (d.enums.mapValues Enum.toValue)) := by
  obtain ⟨documentation, _⟩ := d
  cases documentation <;> rfl

theorem get?_services (d : EntityDocument) :
    d.toValue.get? "services" = some (.mapping (d.services.mapValues Service.toValue)) := by
  obtain ⟨documentation, _⟩ := d
  cases documentation <;> rfl

theorem get?_relationships (d : EntityDocument) :
    d.toValue.get? "relationships" = some (.mapping (d.relationships.mapValues fun partition =>
      .mapping (partition.mapValues Relationship.toValue))) := by
  obtain ⟨documentation, _⟩ := d
  cases documentation <;> rfl

end EntityDocument

end EntityFlow
