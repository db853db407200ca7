import EntityFlow.Document.Model
import EntityFlow.Document.Scope
import EntityFlow.Record.Flow

/-!
# Documents of the flow language

Building walks the tree of a source once. A construct that has parts opens a frame; closing it
hands the finished record to the nearest frame that owns records of its sort. So a conditional
block goes to the rule around it, however deep it stands in other blocks, and a further branch goes
to the block it continues.
-/

namespace EntityFlow

/-- A construct that is open. -/
inductive FlowFrame
  | flow (record : Flow)
  | system (record : System)
  | serviceStub (record : ServiceStub)
  | start (record : Start)
  | when (record : When)
  | conditional (record : Conditional)
  | elseIf (record : ElseIf)
  | otherwise (actions : Actions)
  | ending (record : End)
deriving Repr

namespace FlowFrame

/-- The frame with options, if its record has any. -/
def addOptions (options : List (String × Value)) : FlowFrame → FlowFrame
  | .flow r => .flow { r with options := r.options.add options }
  | .system r => .system { r with options := r.options.add options }
  | .serviceStub r => .serviceStub { r with options := r.options.add options }
  | .start r => .start { r with options := r.options.add options }
  | other => other

/-- The frame with its actions changed, if it has any. -/
def changeActions? (change : Actions → Actions) : FlowFrame → Option FlowFrame
  | .when r => some (.when { r with actions := change r.actions })
  | .conditional r => some (.conditional { r with actions := change r.actions })
  | .elseIf r => some (.elseIf { r with actions := change r.actions })
  | .otherwise actions => some (.otherwise (change actions))
  | _ => none

/-- The frame with a field, if it is a start. -/
def addField? (field : Field) : FlowFrame → Option FlowFrame
  | .start r => some (.start { r with fields := r.fields.put field.name field })
  | _ => none

/-- The frame with its flow changed, if it is one. -/
def changeFlow? (change : Flow → Flow) : FlowFrame → Option FlowFrame
  | .flow r => some (.flow (change r))
  | _ => none

/-- The frame with its system changed, if it is one. -/
def changeSystem? (change : System → System) : FlowFrame → Option FlowFrame
  | .system r => some (.system (change r))
  | _ => none

/-- The frame with its service changed, if it is one. -/
def changeServiceStub? (change : ServiceStub → ServiceStub) : FlowFrame → Option FlowFrame
  | .serviceStub r => some (.serviceStub (change r))
  | _ => none

/-- The frame with a conditional block, if it is a rule. -/
def addConditional? (block : Conditional) : FlowFrame → Option FlowFrame
  | .when r => some (.when { r with conditionals := r.conditionals ++ [block] })
  | _ => none

/-- The frame with its conditional block changed, if it is one. -/
def changeConditional? (change : Conditional → Conditional) : FlowFrame → Option FlowFrame
  | .conditional r => some (.conditional (change r))
  | _ => none

/-- The frame with its ends changed, if it has ends. -/
def changeEnding? (change : End → End) : FlowFrame → Option FlowFrame
  | .ending r => some (.ending (change r))
  | _ => none

/-- The name of the flow that the frame is. -/
def flowName? : FlowFrame → Option String
  | .flow r => some r.name
  | _ => none

end FlowFrame

/-- A document on its way. -/
structure FlowBuilder where
  document : FlowDocument := {}
  scope : Scope FlowFrame := .empty
  locations : OrderedMap Span := []
  diagnostics : List Diagnostic := []
deriving Repr

namespace FlowBuilder

/-! ## Steps -/

/-- Leaves a node out. -/
def skip (n : Node) (context : Context) (b : FlowBuilder) : FlowBuilder :=
  { b with diagnostics := b.diagnostics ++ [Diagnostic.ofNode n context] }

/-- Records where a part of the document stands. -/
def locate (path : String) (span : Span) (b : FlowBuilder) : FlowBuilder :=
  { b with locations := b.locations.put path span }

/-- Opens a frame. -/
def enter (frame : FlowFrame) (b : FlowBuilder) : FlowBuilder :=
  { b with scope := b.scope.enter frame }

/-- Changes the nearest frame for which there is a change. -/
def changeNearest (change : FlowFrame → Option FlowFrame) (b : FlowBuilder) : FlowBuilder :=
  { b with scope := b.scope.changeNearest change }

/-- Changes the innermost frame, if there is a change for it. -/
def changeTop (change : FlowFrame → Option FlowFrame) (b : FlowBuilder) : FlowBuilder :=
  { b with scope := b.scope.changeTop fun frame => (change frame).getD frame }

/-- Hands a finished record to the frame that owns it, or to the document. -/
def register (frame : FlowFrame) (b : FlowBuilder) : FlowBuilder :=
  match frame with
  | .flow r =>
      { b with document := { b.document with flows := b.document.flows.put r.name r } }
  | .system r =>
      b.changeNearest
        (FlowFrame.changeFlow? fun flow => { flow with systems := flow.systems.put r.name r })
  | .serviceStub r =>
      b.changeNearest
        (FlowFrame.changeSystem? fun system =>
          { system with services := system.services.put r.name r })
  | .start r =>
      b.changeNearest
        (FlowFrame.changeFlow? fun flow => { flow with starts := flow.starts.put r.name r })
  | .when r =>
      b.changeNearest (FlowFrame.changeFlow? fun flow => { flow with whens := flow.whens ++ [r] })
  | .conditional r => b.changeNearest (FlowFrame.addConditional? r)
  | .elseIf r =>
      b.changeNearest
        (FlowFrame.changeConditional? fun block => { block with elseIfs := block.elseIfs ++ [r] })
  | .otherwise actions =>
      b.changeNearest
        (FlowFrame.changeConditional? fun block => { block with otherwise := some actions })
  | .ending r =>
      b.changeNearest (FlowFrame.changeFlow? fun flow => { flow with ending := some r })

/-- Closes the innermost frame. -/
def exit (b : FlowBuilder) : FlowBuilder :=
  match b.scope.exit with
  | (some frame, rest) => { b with scope := rest }.register frame
  | (none, _) => b

/-- Adds the options of a node to the innermost frame. -/
def applyOptions (n : Node) (b : FlowBuilder) : FlowBuilder :=
  b.changeTop fun frame => some (frame.addOptions n.options)

/-- The path of the flow that is open. -/
def flowPath (b : FlowBuilder) : String :=
  match b.scope.nearest? FlowFrame.flowName? with
  | some name => "flows." ++ name
  | none => "flows"

/-- The texts of the parts of a kind. -/
def names (n : Node) (k : Node.Kind) : List String := (n.childrenOf k).map (·.text)

/-- The text that the first value of a node stands for. -/
def valueText? (n : Node) : Option String := (n.child .value).map Node.toText

/-! ## Imports and configuration -/

/-- Adds an import. -/
def addImport (n : Node) (b : FlowBuilder) : FlowBuilder :=
  let key := (n.childText .importKey).getD ""
  let value := ((n.child .importValue).map Node.toText).getD ""
  { b with document := { b.document with imports := b.document.imports ++ [(key, value)] } }

/-- Adds a part of the configuration. -/
def addConfigPart (b : FlowBuilder) (n : Node) : FlowBuilder :=
  match n.kind with
  | .configOption =>
      match n.children with
      | [] => b
      | name :: rest =>
          { b with document :=
            { b.document with
              config := b.document.config.put name.text (Node.valueOrTrue rest.head?) } }
  | _ => b.skip n .config

/-- Adds the configuration. -/
def addConfig (n : Node) (b : FlowBuilder) : FlowBuilder := n.children.foldl addConfigPart b

/-! ## Systems -/

/-- Adds a part of a service of a system. -/
def addServiceStubPart (b : FlowBuilder) (n : Node) : FlowBuilder :=
  match n.kind with
  | .flowSystemServiceCommands =>
      b.changeTop
        (FlowFrame.changeServiceStub? fun stub =>
          { stub with commands := stub.commands ++ names n .id })
  | .error => b.skip n .service
  | _ => b

/-- Adds a service to the system that is open. -/
def addServiceStub (n : Node) (b : FlowBuilder) : FlowBuilder :=
  let name := (n.childText .flowSystemServiceName).getD ServiceStub.defaultName
  let opened := (b.enter (.serviceStub { name })).applyOptions n
  (n.children.foldl addServiceStubPart opened).exit

/-- Adds a part of a system. -/
def addSystemPart (b : FlowBuilder) (n : Node) : FlowBuilder :=
  match n.kind with
  | .flowSystemZdl =>
      b.changeTop
        (FlowFrame.changeSystem? fun system => { system with entityModel := valueText? n })
  | .flowSystemService => b.addServiceStub n
  | .flowSystemEvents =>
      b.changeTop
        (FlowFrame.changeSystem? fun system =>
          { system with events := system.events ++ names n .id })
  | .error => b.skip n .system
  | _ => b

/-- Adds a system to the flow that is open. -/
def addSystem (n : Node) (b : FlowBuilder) : FlowBuilder :=
  match n.child .flowSystemName with
  | none => b
  | some name =>
      let located := b.locate (b.flowPath ++ ".systems." ++ name.text) n.span
      let record : System := { name := name.text, documentation := n.documentation? }
      let opened := (located.enter (.system record)).applyOptions n
      (n.children.foldl addSystemPart opened).exit

/-- Adds a part of a block of systems. -/
def addSystemsPart (b : FlowBuilder) (n : Node) : FlowBuilder :=
  match n.kind with
  | .flowSystem => b.addSystem n
  | .error => b.skip n .systems
  | _ => b

/-! ## Starts -/

/-- Adds a part of a start. -/
def addStartPart (b : FlowBuilder) (n : Node) : FlowBuilder :=
  match n.kind with
  | .field => b.changeNearest (FlowFrame.addField? (Field.ofNode n))
  | .error => b.skip n .start
  | _ => b

/-- Adds a start to the flow that is open. -/
def addStart (n : Node) (b : FlowBuilder) : FlowBuilder :=
  match n.child .flowStartName with
  | none => b
  | some name =>
      let located := b.locate (b.flowPath ++ ".starts." ++ name.text) n.span
      let record := { Start.named name.text with documentation := n.documentation? }
      let opened := (located.enter (.start record)).applyOptions n
      (n.children.foldl addStartPart opened).exit

/-! ## Rules -/

/-- The condition of a branch. -/
def condition (parts : List Node) : String :=
  ((parts.find? (·.kind == .value)).map Node.toText).getD ""

/-- Changes the actions of the rule or branch that is open. -/
def changeActions (change : Actions → Actions) (b : FlowBuilder) : FlowBuilder :=
  b.changeNearest (FlowFrame.changeActions? change)

mutual

/-- Adds a part of a rule or of a branch. -/
def addRulePart : Node → FlowBuilder → FlowBuilder
  | ⟨.flowWhenIf, _, _, parts⟩, b =>
      (addRuleParts parts (b.enter (.conditional { condition := condition parts }))).exit
  | ⟨.flowWhenElseIf, _, _, parts⟩, b =>
      (addRuleParts parts (b.enter (.elseIf { condition := condition parts }))).exit
  | ⟨.flowWhenElse, _, _, parts⟩, b => (addRuleParts parts (b.enter (.otherwise {}))).exit
  | ⟨.flowWhenCommand, text, span, parts⟩, b =>
      let name := (Node.childText ⟨.flowWhenCommand, text, span, parts⟩ .id).getD ""
      b.changeActions fun actions => { actions with commands := actions.commands ++ [name] }
  | ⟨.flowWhenEvent, text, span, parts⟩, b =>
      let name := (Node.childText ⟨.flowWhenEvent, text, span, parts⟩ .id).getD ""
      b.changeActions fun actions => { actions with events := actions.events ++ [name] }
  | ⟨.flowWhenPolicy, text, span, parts⟩, b =>
      let policy := (valueText? ⟨.flowWhenPolicy, text, span, parts⟩).getD ""
      b.changeActions fun actions => { actions with policies := actions.policies ++ [policy] }
  | ⟨.error, text, span, parts⟩, b => b.skip ⟨.error, text, span, parts⟩ .when
  | _, b => b

/-- Adds the parts of a rule or of a branch. -/
def addRuleParts : List Node → FlowBuilder → FlowBuilder
  | [], b => b
  | n :: rest, b => addRuleParts rest (addRulePart n b)

end

/-- Adds a rule to the flow that is open. -/
def addWhen (n : Node) (b : FlowBuilder) : FlowBuilder :=
  let triggers := ((n.child .flowWhenTrigger).map (names · .flowWhenEventTrigger)).getD []
  (addRuleParts n.children ((b.enter (.when { triggers })).applyOptions n)).exit

/-! ## Ends -/

/-- The events of an outcome with more of them. -/
def moreEvents (more : List String) (events : Option (List String)) : Option (List String) :=
  some (events.getD [] ++ more)

/-- Adds a part of the ends of a flow. -/
def addEndPart (b : FlowBuilder) (n : Node) : FlowBuilder :=
  let events := names n .id
  match n.kind with
  | .flowEndCompleted =>
      b.changeTop
        (FlowFrame.changeEnding? fun e => { e with completed := moreEvents events e.completed })
  | .flowEndSuspended =>
      b.changeTop
        (FlowFrame.changeEnding? fun e => { e with suspended := moreEvents events e.suspended })
  | .flowEndCancelled =>
      b.changeTop
        (FlowFrame.changeEnding? fun e => { e with cancelled := moreEvents events e.cancelled })
  | .error => b.skip n .ends
  | _ => b

/-- Adds the ends of the flow that is open. -/
def addEnd (n : Node) (b : FlowBuilder) : FlowBuilder :=
  (n.children.foldl addEndPart ((b.enter (.ending {})).applyOptions n)).exit

/-! ## Flows and documents -/

/-- Adds a part of a flow. -/
def addFlowPart (b : FlowBuilder) (n : Node) : FlowBuilder :=
  match n.kind with
  | .flowSystems => n.children.foldl addSystemsPart b
  | .flowStart => b.addStart n
  | .flowWhen => b.addWhen n
  | .flowEnd => b.addEnd n
  | .error => b.skip n .flow
  | _ => b

/-- Adds a flow. -/
def addFlow (n : Node) (b : FlowBuilder) : FlowBuilder :=
  match n.child .flowName with
  | none => b.skip n .flows
  | some name =>
      let path := "flows." ++ name.text
      let located := (b.locate (path ++ ".name") name.span).locate path n.span
      let record := { Flow.named name.text with documentation := n.documentation? }
      let opened := (located.enter (.flow record)).applyOptions n
      (n.children.foldl addFlowPart opened).exit

/-- Adds a top-level node. -/
def addTopLevel (b : FlowBuilder) (n : Node) : FlowBuilder :=
  match n.kind with
  | .globalJavadoc =>
      { b with document :=
        { b.document with
          documentation := some (String.ofList (Text.documentation n.text.toList)) } }
  | .importDecl => b.addImport n
  | .config => b.addConfig n
  | .flow => b.addFlow n
  | _ => b.skip n .document

/-- The builder after a whole tree. -/
def ofTree (tree : Node) : FlowBuilder := tree.children.foldl addTopLevel {}

/-- The model that has been built. -/
def model (b : FlowBuilder) : Model := ⟨b.document.toValue, b.locations, b.diagnostics⟩

end FlowBuilder

/-- The model of a tree of the flow language. -/
def Model.ofFlowTree (tree : Node) : Model := (FlowBuilder.ofTree tree).model

end EntityFlow
