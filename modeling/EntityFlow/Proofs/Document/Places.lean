import EntityFlow.Document.Compile
import EntityFlow.Proofs.Tree.Spans

/-!
# Documents and places

A document does not depend on where the nodes of its tree stand (`Model.document_mapSpans`). The
builders use places for two things, the locations of the parts of a document and the diagnostics of
what it leaves out, and read neither of them again. So builders that agree on their document and on
what is open (`EntityBuilder.Agrees`, `FlowBuilder.Agrees`) still agree after a step for a node and
for the same node elsewhere.
-/

namespace EntityFlow

variable {change : Span → Span}

/-! ## The entity language -/

namespace EntityBuilder

/-- The builders have the same document, and the same declarations are open. -/
structure Agrees (b b' : EntityBuilder) : Prop where
  document : b.document = b'.document
  scope : b.scope = b'.scope

namespace Agrees

variable {b b' : EntityBuilder}

theorem skip (agrees : Agrees b b') (n n' : Node) (context : Context) :
    Agrees (b.skip n context) (b'.skip n' context) :=
  ⟨agrees.document, agrees.scope⟩

theorem locate (agrees : Agrees b b') (path path' : String) (span span' : Span) :
    Agrees (b.locate path span) (b'.locate path' span') :=
  ⟨agrees.document, agrees.scope⟩

theorem locateNamed (agrees : Agrees b b') (path path' : String) (n n' name name' : Node) :
    Agrees (b.locateNamed path n name) (b'.locateNamed path' n' name') :=
  ⟨agrees.document, agrees.scope⟩

theorem setDocument (agrees : Agrees b b') (set : EntityDocument → EntityDocument) :
    Agrees { b with document := set b.document } { b' with document := set b'.document } :=
  ⟨congrArg set agrees.document, agrees.scope⟩

theorem enter (agrees : Agrees b b') (frame : EntityFrame) :
    Agrees (b.enter frame) (b'.enter frame) :=
  ⟨agrees.document, congrArg (·.enter frame) agrees.scope⟩

theorem changeTop (agrees : Agrees b b') (set : EntityFrame → EntityFrame) :
    Agrees (b.changeTop set) (b'.changeTop set) :=
  ⟨agrees.document, congrArg (·.changeTop set) agrees.scope⟩

theorem changeNearest (agrees : Agrees b b') (set : EntityFrame → Option EntityFrame) :
    Agrees (b.changeNearest set) (b'.changeNearest set) :=
  ⟨agrees.document, congrArg (·.changeNearest set) agrees.scope⟩

theorem enterEntity (agrees : Agrees b b') (part : Section) (record : Entity) :
    Agrees (b.enterEntity part record) (b'.enterEntity part record) :=
  ((agrees.setDocument (·.putEntity part record.name {})).changeNearest _).enter _

theorem register (agrees : Agrees b b') (frame : EntityFrame) :
    Agrees (b.register frame) (b'.register frame) := by
  cases frame with
  | entity part record shadowed =>
      cases shadowed with
      | true => exact agrees
      | false => exact agrees.setDocument (·.putEntity part record.name record)
  | enum record =>
      exact agrees.setDocument fun d => { d with enums := d.enums.put record.name record }
  | service record =>
      exact agrees.setDocument fun d => { d with services := d.services.put record.name record }
  | method record => exact agrees.changeNearest _

theorem exit (agrees : Agrees b b') : Agrees b.exit b'.exit := by
  unfold EntityBuilder.exit
  rw [← agrees.scope]
  cases b.scope.exit with
  | mk frame rest =>
      cases frame with
      | none => exact agrees
      | some frame =>
          have popped : Agrees { b with scope := rest } { b' with scope := rest } :=
            ⟨agrees.document, rfl⟩
          exact popped.register frame

/-- Steps that agree for every node make walks that agree. -/
theorem foldl {step : EntityBuilder → Node → EntityBuilder} (agrees : Agrees b b')
    (each : ∀ {b b'} (n : Node), Agrees b b' → Agrees (step b n) (step b' (n.mapSpans change)))
    (ns : List Node) :
    Agrees (ns.foldl step b) ((ns.map (Node.mapSpans change)).foldl step b') := by
  induction ns generalizing b b' with
  | nil => exact agrees
  | cons n rest ih => exact ih (each n agrees)

theorem skipErrors (agrees : Agrees b b') (context : Context) (ns : List Node) :
    Agrees (b.skipErrors context ns)
      (b'.skipErrors context (ns.map (Node.mapSpans change))) := by
  unfold EntityBuilder.skipErrors
  rw [Node.filter_map_mapSpans]
  exact agrees.foldl (fun n agrees => agrees.skip n _ context) _

theorem applyOptions (agrees : Agrees b b') (n : Node) :
    Agrees (b.applyOptions n) (b'.applyOptions (n.mapSpans change)) := by
  unfold EntityBuilder.applyOptions
  rw [Node.options_mapSpans]
  generalize n.options = options
  induction options generalizing b b' with
  | nil => exact agrees
  | cons option rest ih => exact ih (agrees.changeTop _)

theorem currentPart_eq (agrees : Agrees b b') : b.currentPart = b'.currentPart := by
  unfold EntityBuilder.currentPart
  rw [agrees.scope]

end Agrees

section Steps

variable {b b' : EntityBuilder}

theorem embeddedEntity_mapSpans (change : Span → Span) (field : Field) (body : List Node) :
    embeddedEntity field (body.map (Node.mapSpans change)) = embeddedEntity field body := by
  unfold embeddedEntity
  rw [Node.find?_map_mapSpans]
  cases body.find? (·.kind == .tableName) <;> simp

mutual

theorem agrees_addField : (n : Node) → {b b' : EntityBuilder} → Agrees b b' →
    Agrees (addField n b) (addField (n.mapSpans change) b')
  | ⟨k, text, span, parts⟩, b, b', agrees => by
      have same : Field.ofNode ⟨k, text, change span, Node.mapSpansOf change parts⟩ =
          Field.ofNode ⟨k, text, span, parts⟩ := by
        rw [← Node.mapSpans, Field.ofNode_mapSpans]
      rw [Node.mapSpans, addField, addField, same]
      exact agrees_addEmbedded _ parts (agrees.changeNearest _)

theorem agrees_addEmbedded (field : Field) : (ns : List Node) → {b b' : EntityBuilder} →
    Agrees b b' →
    Agrees (addEmbedded field ns b) (addEmbedded field (Node.mapSpansOf change ns) b')
  | [], b, b', agrees => by
      rw [Node.mapSpansOf, addEmbedded, addEmbedded]
      exact agrees
  | ⟨k, text, span, body⟩ :: rest, b, b', agrees => by
      rw [Node.mapSpansOf, Node.mapSpans]
      by_cases nested : k = .nestedField
      · subst nested
        rw [addEmbedded, addEmbedded, ← agrees.currentPart_eq, Node.mapSpansOf_eq,
          embeddedEntity_mapSpans, ← Node.mapSpansOf_eq]
        exact (agrees_addFields body ((agrees.locate _ _ _ _).enterEntity _ _)).exit
      · rw [addEmbedded, addEmbedded]
        · exact agrees_addEmbedded field rest agrees
        · simp [nested]
        · simp [nested]

theorem agrees_addFields : (ns : List Node) → {b b' : EntityBuilder} → Agrees b b' →
    Agrees (addFields ns b) (addFields (Node.mapSpansOf change ns) b')
  | [], b, b', agrees => by
      rw [Node.mapSpansOf, addFields, addFields]
      exact agrees
  | n :: rest, b, b', agrees => by
      rw [Node.mapSpansOf, addFields, addFields, Node.kind_mapSpans]
      apply agrees_addFields rest
      split
      · exact agrees_addField n agrees
      · exact agrees.skip _ _ _
      · exact agrees

end

theorem agrees_addEntity (part : Section) (nameKind : Node.Kind) (n : Node)
    (agrees : Agrees b b') :
    Agrees (b.addEntity part nameKind n) (b'.addEntity part nameKind (n.mapSpans change)) := by
  unfold addEntity
  rw [Node.child_mapSpans]
  cases n.child nameKind with
  | none => exact agrees.skip _ _ _
  | some name =>
      have same : declaredEntity (n.mapSpans change) name.text = declaredEntity n name.text := by
        simp [declaredEntity]
      simp only [Option.map_some, Node.text_mapSpans, Node.children_mapSpans, same,
        ← Node.mapSpansOf_eq]
      exact (agrees_addFields n.children
        (((agrees.locateNamed _ _ _ _ _ _).enterEntity _ _).applyOptions n)).exit

theorem agrees_addConstant (n : Node) (agrees : Agrees b b') :
    Agrees (b.addConstant n) (b'.addConstant (n.mapSpans change)) := by
  unfold addConstant
  rw [Node.children_mapSpans]
  cases n.children with
  | nil => exact agrees
  | cons name rest =>
      simp only [List.map_cons, List.head?_map, Node.valueOrTrue_map_mapSpans,
        Node.text_mapSpans]
      exact agrees.setDocument fun d =>
        { d with constants := d.constants.put name.text (Node.valueOrTrue rest.head?) }

theorem agrees_addEnumValue (n : Node) (agrees : Agrees b b') :
    Agrees (b.addEnumValue n) (b'.addEnumValue (n.mapSpans change)) := by
  unfold addEnumValue
  rw [Node.childText_mapSpans]
  cases n.childText .enumValueName with
  | none => exact agrees
  | some name =>
      have same : ((n.mapSpans change).child .enumValueValue).map Node.toValue =
          (n.child .enumValueValue).map Node.toValue := by
        cases value : n.child .enumValueValue <;> simp [value]
      simp only [Node.documentation?_mapSpans, same]
      exact agrees.changeTop _

theorem agrees_addEnumPart (n : Node) (agrees : Agrees b b') :
    Agrees (b.addEnumPart n) (b'.addEnumPart (n.mapSpans change)) := by
  unfold addEnumPart
  rw [Node.kind_mapSpans]
  split
  · exact agrees_addEnumValue n agrees
  · exact agrees.skip _ _ _
  · exact agrees

theorem agrees_addEnum (n : Node) (agrees : Agrees b b') :
    Agrees (b.addEnum n) (b'.addEnum (n.mapSpans change)) := by
  unfold addEnum
  rw [Node.child_mapSpans]
  cases n.child .enumName with
  | none => exact agrees.skip _ _ _
  | some name =>
      simp only [Option.map_some, Node.text_mapSpans, Node.documentation?_mapSpans,
        Node.children_mapSpans]
      exact ((((agrees.locateNamed _ _ _ _ _ _).enter _).applyOptions n).foldl
        agrees_addEnumPart n.children).exit

theorem relationship?_mapSpans (change : Span → Span) (kind : String) (n : Node) :
    relationship? kind (n.mapSpans change) = relationship? kind n := by
  unfold relationship?
  rw [Node.child_mapSpans, Node.child_mapSpans]
  cases n.child .relationshipFrom <;> cases n.child .relationshipTo <;> simp

theorem agrees_addRelationshipPart (kind : String) (n : Node) (agrees : Agrees b b') :
    Agrees (b.addRelationshipPart kind n) (b'.addRelationshipPart kind (n.mapSpans change)) := by
  unfold addRelationshipPart addRelationship
  rw [Node.kind_mapSpans, relationship?_mapSpans]
  split
  · cases relationship? kind n with
    | none => exact agrees.skip _ _ _
    | some r => exact (agrees.setDocument (·.putRelationship r)).locate _ _ _ _
  · exact agrees.skip _ _ _
  · exact agrees

theorem agrees_addRelationships (n : Node) (agrees : Agrees b b') :
    Agrees (b.addRelationships n) (b'.addRelationships (n.mapSpans change)) := by
  unfold addRelationships
  rw [Node.childText_mapSpans, Node.children_mapSpans]
  exact agrees.foldl (agrees_addRelationshipPart _) n.children

theorem declaredMethod_mapSpans (change : Span → Span) (n : Node) (name : String) :
    declaredMethod (n.mapSpans change) name = declaredMethod n name := by
  unfold declaredMethod
  cases returned : n.child .serviceMethodReturn <;>
    cases events : n.child .serviceMethodEvents <;> simp [returned, events]

theorem agrees_addMethod (service : String) (n : Node) (agrees : Agrees b b') :
    Agrees (b.addMethod service n) (b'.addMethod service (n.mapSpans change)) := by
  unfold addMethod
  rw [Node.child_mapSpans]
  cases n.child .serviceMethodName with
  | none => exact agrees
  | some name =>
      simp only [Option.map_some, Node.text_mapSpans, declaredMethod_mapSpans,
        Node.children_mapSpans]
      exact ((((agrees.locateNamed _ _ _ _ _ _).enter _).applyOptions n).skipErrors
        .method n.children).exit

theorem agrees_addMethods (n : Node) (service : String) (aggregates : List String)
    (agrees : Agrees b b') :
    Agrees (b.addMethods n service aggregates)
      (b'.addMethods (n.mapSpans change) service aggregates) := by
  unfold addMethods
  have implied : impliedMethods (n.mapSpans change) service aggregates =
      impliedMethods n service aggregates := by
    simp [impliedMethods]
  rw [Node.childrenOf_mapSpans, implied]
  cases n.childrenOf .serviceMethod with
  | nil =>
      generalize impliedMethods n service aggregates = methods
      show Agrees (methods.foldl _ b) (methods.foldl _ b')
      induction methods generalizing b b' with
      | nil => exact agrees
      | cons method rest ih => exact ih (agrees.register _)
  | cons method rest => exact agrees.foldl (agrees_addMethod service) (method :: rest)

theorem agrees_addService (n : Node) (agrees : Agrees b b') :
    Agrees (b.addService n) (b'.addService (n.mapSpans change)) := by
  unfold addService
  rw [Node.child_mapSpans]
  cases n.child .serviceName with
  | none => exact agrees.skip _ _ _
  | some name =>
      have same : ((n.mapSpans change).child .serviceAggregates).map (·.children.map (·.text)) =
          (n.child .serviceAggregates).map (·.children.map (·.text)) := by
        cases aggregates : n.child .serviceAggregates <;> simp [aggregates]
      simp only [Option.map_some, Node.text_mapSpans, same, Node.documentation?_mapSpans,
        Node.children_mapSpans]
      exact ((agrees_addMethods n _ _ (((agrees.locateNamed _ _ _ _ _ _).enter _).applyOptions
        n)).skipErrors .service n.children).exit

theorem agrees_addTopLevel (n : Node) (agrees : Agrees b b') :
    Agrees (b.addTopLevel n) (b'.addTopLevel (n.mapSpans change)) := by
  unfold addTopLevel
  rw [Node.kind_mapSpans, Node.text_mapSpans]
  split
  · exact agrees.setDocument fun d =>
      { d with documentation := some (String.ofList (Text.documentation n.text.toList)) }
  · exact agrees_addConstant n agrees
  · exact agrees_addEntity _ _ n agrees
  · exact agrees_addEntity _ _ n agrees
  · exact agrees_addEntity _ _ n agrees
  · exact agrees_addEnum n agrees
  · exact agrees_addRelationships n agrees
  · exact agrees_addService n agrees
  · exact agrees_addService n agrees
  · exact agrees.skip _ _ _

theorem agrees_ofTree (change : Span → Span) (tree : Node) :
    Agrees (ofTree tree) (ofTree (tree.mapSpans change)) := by
  unfold ofTree
  rw [Node.children_mapSpans]
  exact Agrees.foldl ⟨rfl, rfl⟩ agrees_addTopLevel tree.children

end Steps

end EntityBuilder

/-! ## The flow language -/

namespace FlowBuilder

/-- The builders have the same document, and the same declarations are open. -/
structure Agrees (b b' : FlowBuilder) : Prop where
  document : b.document = b'.document
  scope : b.scope = b'.scope

namespace Agrees

variable {b b' : FlowBuilder}

theorem skip (agrees : Agrees b b') (n n' : Node) (context : Context) :
    Agrees (b.skip n context) (b'.skip n' context) :=
  ⟨agrees.document, agrees.scope⟩

theorem locate (agrees : Agrees b b') (path path' : String) (span span' : Span) :
    Agrees (b.locate path span) (b'.locate path' span') :=
  ⟨agrees.document, agrees.scope⟩

theorem setDocument (agrees : Agrees b b') (set : FlowDocument → FlowDocument) :
    Agrees { b with document := set b.document } { b' with document := set b'.document } :=
  ⟨congrArg set agrees.document, agrees.scope⟩

theorem enter (agrees : Agrees b b') (frame : FlowFrame) :
    Agrees (b.enter frame) (b'.enter frame) :=
  ⟨agrees.document, congrArg (·.enter frame) agrees.scope⟩

theorem changeNearest (agrees : Agrees b b') (set : FlowFrame → Option FlowFrame) :
    Agrees (b.changeNearest set) (b'.changeNearest set) :=
  ⟨agrees.document, congrArg (·.changeNearest set) agrees.scope⟩

theorem changeTop (agrees : Agrees b b') (set : FlowFrame → Option FlowFrame) :
    Agrees (b.changeTop set) (b'.changeTop set) :=
  ⟨agrees.document, congrArg (·.changeTop fun frame => (set frame).getD frame) agrees.scope⟩

theorem register (agrees : Agrees b b') (frame : FlowFrame) :
    Agrees (b.register frame) (b'.register frame) := by
  cases frame with
  | flow r => exact agrees.setDocument fun d => { d with flows := d.flows.put r.name r }
  | _ => exact agrees.changeNearest _

theorem exit (agrees : Agrees b b') : Agrees b.exit b'.exit := by
  unfold FlowBuilder.exit
  rw [← agrees.scope]
  cases b.scope.exit with
  | mk frame rest =>
      cases frame with
      | none => exact agrees
      | some frame =>
          have popped : Agrees { b with scope := rest } { b' with scope := rest } :=
            ⟨agrees.document, rfl⟩
          exact popped.register frame

/-- Steps that agree for every node make walks that agree. -/
theorem foldl {step : FlowBuilder → Node → FlowBuilder} (agrees : Agrees b b')
    (each : ∀ {b b'} (n : Node), Agrees b b' → Agrees (step b n) (step b' (n.mapSpans change)))
    (ns : List Node) :
    Agrees (ns.foldl step b) ((ns.map (Node.mapSpans change)).foldl step b') := by
  induction ns generalizing b b' with
  | nil => exact agrees
  | cons n rest ih => exact ih (each n agrees)

theorem applyOptions (agrees : Agrees b b') (n : Node) :
    Agrees (b.applyOptions n) (b'.applyOptions (n.mapSpans change)) := by
  unfold FlowBuilder.applyOptions
  rw [Node.options_mapSpans]
  exact agrees.changeTop _

end Agrees

section Steps

variable {b b' : FlowBuilder}

@[simp] theorem names_mapSpans (change : Span → Span) (n : Node) (k : Node.Kind) :
    names (n.mapSpans change) k = names n k := by
  simp [names]

@[simp] theorem valueText?_mapSpans (change : Span → Span) (n : Node) :
    valueText? (n.mapSpans change) = valueText? n := by
  unfold valueText?
  cases value : n.child .value <;> simp [value]

theorem agrees_addImport (n : Node) (agrees : Agrees b b') :
    Agrees (b.addImport n) (b'.addImport (n.mapSpans change)) := by
  have same : ((n.mapSpans change).child .importValue).map Node.toText =
      (n.child .importValue).map Node.toText := by
    cases value : n.child .importValue <;> simp [value]
  simp only [addImport, same, Node.childText_mapSpans]
  exact agrees.setDocument fun d => { d with imports := d.imports ++ [_] }

theorem agrees_addConfigPart (n : Node) (agrees : Agrees b b') :
    Agrees (b.addConfigPart n) (b'.addConfigPart (n.mapSpans change)) := by
  unfold addConfigPart
  rw [Node.kind_mapSpans, Node.children_mapSpans]
  split
  · cases n.children with
    | nil => exact agrees
    | cons name rest =>
        simp only [List.map_cons, List.head?_map, Node.valueOrTrue_map_mapSpans,
          Node.text_mapSpans]
        exact agrees.setDocument fun d =>
          { d with config := d.config.put name.text (Node.valueOrTrue rest.head?) }
  · exact agrees.skip _ _ _

theorem agrees_addServiceStubPart (n : Node) (agrees : Agrees b b') :
    Agrees (b.addServiceStubPart n) (b'.addServiceStubPart (n.mapSpans change)) := by
  unfold addServiceStubPart
  rw [Node.kind_mapSpans, names_mapSpans]
  split
  · exact agrees.changeTop _
  · exact agrees.skip _ _ _
  · exact agrees

theorem agrees_addServiceStub (n : Node) (agrees : Agrees b b') :
    Agrees (b.addServiceStub n) (b'.addServiceStub (n.mapSpans change)) := by
  unfold addServiceStub
  rw [Node.childText_mapSpans, Node.children_mapSpans]
  exact (((agrees.enter _).applyOptions n).foldl agrees_addServiceStubPart n.children).exit

theorem agrees_addSystemPart (n : Node) (agrees : Agrees b b') :
    Agrees (b.addSystemPart n) (b'.addSystemPart (n.mapSpans change)) := by
  unfold addSystemPart
  rw [Node.kind_mapSpans, names_mapSpans, valueText?_mapSpans]
  split
  · exact agrees.changeTop _
  · exact agrees_addServiceStub n agrees
  · exact agrees.changeTop _
  · exact agrees.skip _ _ _
  · exact agrees

theorem agrees_addSystem (n : Node) (agrees : Agrees b b') :
    Agrees (b.addSystem n) (b'.addSystem (n.mapSpans change)) := by
  unfold addSystem
  rw [Node.child_mapSpans]
  cases n.child .flowSystemName with
  | none => exact agrees
  | some name =>
      simp only [Option.map_some, Node.text_mapSpans, Node.documentation?_mapSpans,
        Node.children_mapSpans]
      exact ((((agrees.locate _ _ _ _).enter _).applyOptions n).foldl
        agrees_addSystemPart n.children).exit

theorem agrees_addSystemsPart (n : Node) (agrees : Agrees b b') :
    Agrees (b.addSystemsPart n) (b'.addSystemsPart (n.mapSpans change)) := by
  unfold addSystemsPart
  rw [Node.kind_mapSpans]
  split
  · exact agrees_addSystem n agrees
  · exact agrees.skip _ _ _
  · exact agrees

theorem agrees_addStartPart (n : Node) (agrees : Agrees b b') :
    Agrees (b.addStartPart n) (b'.addStartPart (n.mapSpans change)) := by
  unfold addStartPart
  rw [Node.kind_mapSpans, Field.ofNode_mapSpans]
  split
  · exact agrees.changeNearest _
  · exact agrees.skip _ _ _
  · exact agrees

theorem agrees_addStart (n : Node) (agrees : Agrees b b') :
    Agrees (b.addStart n) (b'.addStart (n.mapSpans change)) := by
  unfold addStart
  rw [Node.child_mapSpans]
  cases n.child .flowStartName with
  | none => exact agrees
  | some name =>
      simp only [Option.map_some, Node.text_mapSpans, Node.documentation?_mapSpans,
        Node.children_mapSpans]
      exact ((((agrees.locate _ _ _ _).enter _).applyOptions n).foldl
        agrees_addStartPart n.children).exit

theorem condition_mapSpans (change : Span → Span) (parts : List Node) :
    condition (parts.map (Node.mapSpans change)) = condition parts := by
  unfold condition
  rw [Node.find?_map_mapSpans]
  cases parts.find? (·.kind == .value) <;> simp

mutual

theorem agrees_addRulePart : (n : Node) → {b b' : FlowBuilder} → Agrees b b' →
    Agrees (addRulePart n b) (addRulePart (n.mapSpans change) b')
  | ⟨k, text, span, parts⟩, b, b', agrees => by
      have name : Node.childText ⟨k, text, change span, Node.mapSpansOf change parts⟩ .id =
          Node.childText ⟨k, text, span, parts⟩ .id := by
        rw [← Node.mapSpans, Node.childText_mapSpans]
      have policy : valueText? ⟨k, text, change span, Node.mapSpansOf change parts⟩ =
          valueText? ⟨k, text, span, parts⟩ := by
        rw [← Node.mapSpans, valueText?_mapSpans]
      have tested : condition (Node.mapSpansOf change parts) = condition parts := by
        rw [Node.mapSpansOf_eq, condition_mapSpans]
      rw [Node.mapSpans]
      cases k with
      | flowWhenIf =>
          rw [addRulePart, addRulePart, tested]
          exact (agrees_addRuleParts parts (agrees.enter _)).exit
      | flowWhenElseIf =>
          rw [addRulePart, addRulePart, tested]
          exact (agrees_addRuleParts parts (agrees.enter _)).exit
      | flowWhenElse =>
          rw [addRulePart, addRulePart]
          exact (agrees_addRuleParts parts (agrees.enter _)).exit
      | flowWhenCommand =>
          rw [addRulePart, addRulePart, name]
          exact agrees.changeNearest _
      | flowWhenEvent =>
          rw [addRulePart, addRulePart, name]
          exact agrees.changeNearest _
      | flowWhenPolicy =>
          rw [addRulePart, addRulePart, policy]
          exact agrees.changeNearest _
      | error => exact agrees.skip _ _ _
      | _ => exact agrees

theorem agrees_addRuleParts : (ns : List Node) → {b b' : FlowBuilder} → Agrees b b' →
    Agrees (addRuleParts ns b) (addRuleParts (Node.mapSpansOf change ns) b')
  | [], b, b', agrees => agrees
  | n :: rest, b, b', agrees => by
      rw [Node.mapSpansOf, addRuleParts, addRuleParts]
      exact agrees_addRuleParts rest (agrees_addRulePart n agrees)

end

theorem agrees_addWhen (n : Node) (agrees : Agrees b b') :
    Agrees (b.addWhen n) (b'.addWhen (n.mapSpans change)) := by
  have same : ((n.mapSpans change).child .flowWhenTrigger).map (names · .flowWhenEventTrigger) =
      (n.child .flowWhenTrigger).map (names · .flowWhenEventTrigger) := by
    cases trigger : n.child .flowWhenTrigger <;> simp [trigger]
  simp only [addWhen, same, Node.children_mapSpans, ← Node.mapSpansOf_eq]
  exact (agrees_addRuleParts n.children ((agrees.enter _).applyOptions n)).exit

theorem agrees_addEndPart (n : Node) (agrees : Agrees b b') :
    Agrees (b.addEndPart n) (b'.addEndPart (n.mapSpans change)) := by
  unfold addEndPart
  rw [Node.kind_mapSpans, names_mapSpans]
  split
  · exact agrees.changeTop _
  · exact agrees.changeTop _
  · exact agrees.changeTop _
  · exact agrees.skip _ _ _
  · exact agrees

theorem agrees_addEnd (n : Node) (agrees : Agrees b b') :
    Agrees (b.addEnd n) (b'.addEnd (n.mapSpans change)) := by
  unfold addEnd
  rw [Node.children_mapSpans]
  exact (((agrees.enter _).applyOptions n).foldl agrees_addEndPart n.children).exit

theorem agrees_addFlowPart (n : Node) (agrees : Agrees b b') :
    Agrees (b.addFlowPart n) (b'.addFlowPart (n.mapSpans change)) := by
  unfold addFlowPart
  rw [Node.kind_mapSpans, Node.children_mapSpans]
  split
  · exact agrees.foldl agrees_addSystemsPart n.children
  · exact agrees_addStart n agrees
  · exact agrees_addWhen n agrees
  · exact agrees_addEnd n agrees
  · exact agrees.skip _ _ _
  · exact agrees

theorem agrees_addFlow (n : Node) (agrees : Agrees b b') :
    Agrees (b.addFlow n) (b'.addFlow (n.mapSpans change)) := by
  unfold addFlow
  rw [Node.child_mapSpans]
  cases n.child .flowName with
  | none => exact agrees.skip _ _ _
  | some name =>
      simp only [Option.map_some, Node.text_mapSpans, Node.documentation?_mapSpans,
        Node.children_mapSpans]
      exact (((((agrees.locate _ _ _ _).locate _ _ _ _).enter _).applyOptions n).foldl
        agrees_addFlowPart n.children).exit

theorem agrees_addTopLevel (n : Node) (agrees : Agrees b b') :
    Agrees (b.addTopLevel n) (b'.addTopLevel (n.mapSpans change)) := by
  unfold addTopLevel addConfig
  rw [Node.kind_mapSpans, Node.text_mapSpans, Node.children_mapSpans]
  split
  · exact agrees.setDocument fun d =>
      { d with documentation := some (String.ofList (Text.documentation n.text.toList)) }
  · exact agrees_addImport n agrees
  · exact agrees.foldl agrees_addConfigPart n.children
  · exact agrees_addFlow n agrees
  · exact agrees.skip _ _ _

theorem agrees_ofTree (change : Span → Span) (tree : Node) :
    Agrees (ofTree tree) (ofTree (tree.mapSpans change)) := by
  unfold ofTree
  rw [Node.children_mapSpans]
  exact Agrees.foldl ⟨rfl, rfl⟩ agrees_addTopLevel tree.children

end Steps

end FlowBuilder

/-! ## Both languages -/

/-- The document of a tree does not depend on where its nodes stand. -/
theorem Model.document_mapSpans (language : Language) (change : Span → Span) (tree : Node) :
    (Model.ofTree language (tree.mapSpans change)).document =
      (Model.ofTree language tree).document := by
  cases language with
  | entity =>
      show (EntityBuilder.ofTree (tree.mapSpans change)).document.toValue =
        (EntityBuilder.ofTree tree).document.toValue
      rw [(EntityBuilder.agrees_ofTree change tree).document]
  | flow =>
      show (FlowBuilder.ofTree (tree.mapSpans change)).document.toValue =
        (FlowBuilder.ofTree tree).document.toValue
      rw [(FlowBuilder.agrees_ofTree change tree).document]

end EntityFlow
