import EntityFlow.Document.Compile

/-!
# What documents leave out

Building a document adds a diagnostic for every construct that the document has no use for. Which
ones these are depends on the tree alone and not on what was built before: `EntityBuilder.omissions`
and `FlowBuilder.omissions` list them in order, and the diagnostics are theirs
(`EntityBuilder.diagnostics_ofTree`, `FlowBuilder.diagnostics_ofTree`). Every step of a builder has
its list, and what it adds to the diagnostics is that list.
-/

namespace EntityFlow

/-- A construct that is left out, and the part of the document that has no use for it. -/
structure Omission where
  node : Node
  context : Context

namespace Omission

/-- The diagnostic that reports the construct. -/
def diagnostic (o : Omission) : Diagnostic := .ofNode o.node o.context

/-- The omission of a node that is left out if it is an error node. -/
def ofError (context : Context) (n : Node) : List Omission :=
  match n.kind with
  | .error => [⟨n, context⟩]
  | _ => []

theorem ofError_eq_nil {n : Node} (context : Context) (proper : n.kind ≠ .error) :
    ofError context n = [] := by
  unfold ofError
  split
  · rename_i isError
    exact absurd isError proper
  · rfl

/-- A walk over some nodes leaves out what its steps do. -/
theorem diagnostics_foldl {B : Type} {diagnostics : B → List Diagnostic} {step : B → Node → B}
    {omitted : Node → List Omission}
    (each : ∀ b n, diagnostics (step b n) = diagnostics b ++ (omitted n).map diagnostic)
    (ns : List Node) (b : B) :
    diagnostics (ns.foldl step b) = diagnostics b ++ (ns.flatMap omitted).map diagnostic := by
  induction ns generalizing b with
  | nil => simp
  | cons n rest ih => simp [ih, each]

end Omission

/-! ## Entity documents -/

namespace EntityBuilder

section Steps

variable (b : EntityBuilder)

@[simp] theorem diagnostics_skip (n : Node) (context : Context) :
    (b.skip n context).diagnostics = b.diagnostics ++ [Diagnostic.ofNode n context] := rfl

@[simp] theorem diagnostics_locate (path : String) (span : Span) :
    (b.locate path span).diagnostics = b.diagnostics := rfl

@[simp] theorem diagnostics_locateNamed (path : String) (n name : Node) :
    (b.locateNamed path n name).diagnostics = b.diagnostics := rfl

@[simp] theorem diagnostics_enter (frame : EntityFrame) :
    (b.enter frame).diagnostics = b.diagnostics := rfl

@[simp] theorem diagnostics_changeTop (change : EntityFrame → EntityFrame) :
    (b.changeTop change).diagnostics = b.diagnostics := rfl

@[simp] theorem diagnostics_changeNearest (change : EntityFrame → Option EntityFrame) :
    (b.changeNearest change).diagnostics = b.diagnostics := rfl

@[simp] theorem diagnostics_enterEntity (part : Section) (record : Entity) :
    (b.enterEntity part record).diagnostics = b.diagnostics := rfl

@[simp] theorem diagnostics_register (frame : EntityFrame) :
    (b.register frame).diagnostics = b.diagnostics := by
  cases frame with
  | entity part record shadowed => cases shadowed <;> rfl
  | enum record => rfl
  | service record => rfl
  | method record => rfl

@[simp] theorem diagnostics_exit : b.exit.diagnostics = b.diagnostics := by
  unfold exit
  split
  · rw [diagnostics_register]
  · rfl

@[simp] theorem diagnostics_applyOptions (n : Node) :
    (b.applyOptions n).diagnostics = b.diagnostics := by
  unfold applyOptions
  generalize n.options = options
  induction options generalizing b with
  | nil => rfl
  | cons option rest ih => rw [List.foldl_cons, ih, diagnostics_changeTop]

theorem diagnostics_skipErrors (context : Context) (ns : List Node) :
    (b.skipErrors context ns).diagnostics =
      b.diagnostics ++ (ns.flatMap (Omission.ofError context)).map Omission.diagnostic := by
  unfold skipErrors
  induction ns generalizing b with
  | nil => simp
  | cons n rest ih =>
      by_cases isError : n.kind = .error
      · simp [isError, ih, Omission.ofError, Omission.diagnostic]
      · simp [isError, ih, Omission.ofError_eq_nil]

end Steps

mutual

/-- What the nested body of a field leaves out. -/
def omittedInField : Node → List Omission
  | ⟨_, _, _, parts⟩ => omittedInEmbedded parts

/-- What the first nested body among some nodes leaves out. -/
def omittedInEmbedded : List Node → List Omission
  | [] => []
  | ⟨.nestedField, _, _, body⟩ :: _ => omittedInFields body
  | _ :: rest => omittedInEmbedded rest

/-- What the fields among some nodes leave out. -/
def omittedInFields : List Node → List Omission
  | [] => []
  | n :: rest =>
      (match n.kind with
        | .field => omittedInField n
        | .error => [⟨n, .fieldList⟩]
        | _ => []) ++ omittedInFields rest

end

mutual

theorem diagnostics_addField (b : EntityBuilder) :
    (n : Node) →
      (b.addField n).diagnostics = b.diagnostics ++ (omittedInField n).map Omission.diagnostic
  | ⟨k, text, span, parts⟩ => by
      rw [addField, omittedInField, diagnostics_addEmbedded, diagnostics_changeNearest]

theorem diagnostics_addEmbedded (field : Field) (b : EntityBuilder) :
    (parts : List Node) →
      (addEmbedded field parts b).diagnostics =
        b.diagnostics ++ (omittedInEmbedded parts).map Omission.diagnostic
  | [] => by simp [addEmbedded, omittedInEmbedded]
  | ⟨k, text, span, body⟩ :: rest => by
      by_cases nested : k = .nestedField
      · subst nested
        rw [addEmbedded, omittedInEmbedded, diagnostics_exit, diagnostics_addFields,
          diagnostics_enterEntity, diagnostics_locate]
      · rw [addEmbedded, omittedInEmbedded, diagnostics_addEmbedded field b rest] <;>
          simp [nested]

theorem diagnostics_addFields (b : EntityBuilder) :
    (ns : List Node) →
      (addFields ns b).diagnostics = b.diagnostics ++ (omittedInFields ns).map Omission.diagnostic
  | [] => by simp [addFields, omittedInFields]
  | n :: rest => by
      rw [addFields, omittedInFields, diagnostics_addFields _ rest, List.map_append,
        ← List.append_assoc]
      congr 1
      cases known : n.kind with
      | field => exact diagnostics_addField b n
      | error => rfl
      | _ => simp

end

section Declarations

variable (b : EntityBuilder) (n : Node)

/-- What an entity, event or input leaves out: its broken fields, or all of it if it has no name. -/
def omittedInEntity (part : Section) (nameKind : Node.Kind) : List Omission :=
  match n.child nameKind with
  | none => [⟨n, part.context⟩]
  | some _ => omittedInFields n.children

theorem diagnostics_addEntity (part : Section) (nameKind : Node.Kind) :
    (b.addEntity part nameKind n).diagnostics =
      b.diagnostics ++ (omittedInEntity n part nameKind).map Omission.diagnostic := by
  unfold addEntity omittedInEntity
  cases n.child nameKind with
  | none => rfl
  | some name => simp [diagnostics_addFields]

/-- What an enum leaves out. -/
def omittedInEnum : List Omission :=
  match n.child .enumName with
  | none => [⟨n, .enums⟩]
  | some _ => n.children.flatMap (Omission.ofError .enum)

theorem diagnostics_addEnumPart :
    (b.addEnumPart n).diagnostics =
      b.diagnostics ++ (Omission.ofError .enum n).map Omission.diagnostic := by
  unfold addEnumPart Omission.ofError
  cases n.kind with
  | error => rfl
  | enumValue =>
      unfold addEnumValue
      cases n.childText .enumValueName <;> simp
  | _ => simp

theorem diagnostics_addEnum :
    (b.addEnum n).diagnostics = b.diagnostics ++ (omittedInEnum n).map Omission.diagnostic := by
  unfold addEnum omittedInEnum
  cases n.child .enumName with
  | none => rfl
  | some name =>
      rw [diagnostics_exit, Omission.diagnostics_foldl diagnostics_addEnumPart]
      simp

/-- What a part of a block of relationships leaves out: itself, if it is an error node or lacks an
end. -/
def omittedInRelationships : List Omission :=
  match n.kind with
  | .relationship =>
      if n.hasChild .relationshipFrom && n.hasChild .relationshipTo then []
      else [⟨n, .relationships⟩]
  | _ => Omission.ofError .relationships n

theorem diagnostics_addRelationship (kind : String) :
    (b.addRelationship kind n).diagnostics =
      b.diagnostics ++
        (if n.hasChild .relationshipFrom && n.hasChild .relationshipTo then []
        else [⟨n, .relationships⟩]).map Omission.diagnostic := by
  unfold addRelationship relationship? Node.hasChild
  cases n.child .relationshipFrom <;> cases n.child .relationshipTo <;> simp [Omission.diagnostic]

theorem diagnostics_addRelationshipPart (kind : String) :
    (addRelationshipPart kind b n).diagnostics =
      b.diagnostics ++ (omittedInRelationships n).map Omission.diagnostic := by
  unfold addRelationshipPart omittedInRelationships Omission.ofError
  cases n.kind with
  | relationship => exact diagnostics_addRelationship b n kind
  | error => rfl
  | _ => simp

theorem diagnostics_addRelationships :
    (b.addRelationships n).diagnostics =
      b.diagnostics ++ (n.children.flatMap omittedInRelationships).map Omission.diagnostic := by
  unfold addRelationships
  rw [Omission.diagnostics_foldl fun b n => diagnostics_addRelationshipPart b n _]

/-- What a method of a service leaves out. -/
def omittedInMethod : List Omission :=
  match n.child .serviceMethodName with
  | none => []
  | some _ => n.children.flatMap (Omission.ofError .method)

theorem diagnostics_addMethod (service : String) :
    (addMethod service b n).diagnostics =
      b.diagnostics ++ (omittedInMethod n).map Omission.diagnostic := by
  unfold addMethod omittedInMethod
  cases n.child .serviceMethodName with
  | none => simp
  | some name => simp [diagnostics_skipErrors]

theorem diagnostics_addMethods (service : String) (aggregates : List String) :
    (b.addMethods n service aggregates).diagnostics =
      b.diagnostics ++
        ((n.childrenOf .serviceMethod).flatMap omittedInMethod).map Omission.diagnostic := by
  unfold addMethods
  cases n.childrenOf .serviceMethod with
  | nil =>
      generalize impliedMethods n service aggregates = methods
      induction methods generalizing b with
      | nil => simp
      | cons m rest ih => simpa using ih (b.register (.method m))
  | cons first rest =>
      exact Omission.diagnostics_foldl (fun b n => diagnostics_addMethod b n service) _ b

/-- What a service leaves out: the broken parts of its methods and its own. -/
def omittedInService : List Omission :=
  match n.child .serviceName with
  | none => [⟨n, .services⟩]
  | some _ =>
      (n.childrenOf .serviceMethod).flatMap omittedInMethod ++
        n.children.flatMap (Omission.ofError .service)

theorem diagnostics_addService :
    (b.addService n).diagnostics =
      b.diagnostics ++ (omittedInService n).map Omission.diagnostic := by
  unfold addService omittedInService
  cases n.child .serviceName with
  | none => rfl
  | some name => simp [diagnostics_skipErrors, diagnostics_addMethods]

end Declarations

/-- What a top-level node leaves out. -/
def omittedInTopLevel (n : Node) : List Omission :=
  match n.kind with
  | .globalJavadoc | .legacyConstant => []
  | .entity => omittedInEntity n .entities .entityName
  | .event => omittedInEntity n .events .eventName
  | .input => omittedInEntity n .inputs .inputName
  | .enum => omittedInEnum n
  | .relationships => n.children.flatMap omittedInRelationships
  | .service | .serviceLegacy => omittedInService n
  | _ => [⟨n, .document⟩]

theorem diagnostics_addTopLevel (b : EntityBuilder) (n : Node) :
    (b.addTopLevel n).diagnostics =
      b.diagnostics ++ (omittedInTopLevel n).map Omission.diagnostic := by
  unfold addTopLevel omittedInTopLevel
  cases n.kind with
  | globalJavadoc => simp
  | legacyConstant =>
      unfold addConstant
      cases n.children <;> simp
  | entity => exact diagnostics_addEntity b n .entities .entityName
  | event => exact diagnostics_addEntity b n .events .eventName
  | input => exact diagnostics_addEntity b n .inputs .inputName
  | enum => exact diagnostics_addEnum b n
  | relationships => exact diagnostics_addRelationships b n
  | service => exact diagnostics_addService b n
  | serviceLegacy => exact diagnostics_addService b n
  | _ => rfl

/-- What the document of a tree leaves out. -/
def omissions (tree : Node) : List Omission := tree.children.flatMap omittedInTopLevel

/-- The diagnostics of a document are those of what it leaves out. -/
theorem diagnostics_ofTree (tree : Node) :
    (ofTree tree).diagnostics = (omissions tree).map Omission.diagnostic :=
  Omission.diagnostics_foldl diagnostics_addTopLevel tree.children {}

end EntityBuilder

/-! ## Flow documents -/

namespace FlowBuilder

section Steps

variable (b : FlowBuilder)

@[simp] theorem diagnostics_skip (n : Node) (context : Context) :
    (b.skip n context).diagnostics = b.diagnostics ++ [Diagnostic.ofNode n context] := rfl

@[simp] theorem diagnostics_locate (path : String) (span : Span) :
    (b.locate path span).diagnostics = b.diagnostics := rfl

@[simp] theorem diagnostics_enter (frame : FlowFrame) :
    (b.enter frame).diagnostics = b.diagnostics := rfl

@[simp] theorem diagnostics_changeTop (change : FlowFrame → Option FlowFrame) :
    (b.changeTop change).diagnostics = b.diagnostics := rfl

@[simp] theorem diagnostics_changeNearest (change : FlowFrame → Option FlowFrame) :
    (b.changeNearest change).diagnostics = b.diagnostics := rfl

@[simp] theorem diagnostics_changeActions (change : Actions → Actions) :
    (b.changeActions change).diagnostics = b.diagnostics := rfl

@[simp] theorem diagnostics_applyOptions (n : Node) :
    (b.applyOptions n).diagnostics = b.diagnostics := rfl

@[simp] theorem diagnostics_register (frame : FlowFrame) :
    (b.register frame).diagnostics = b.diagnostics := by
  cases frame <;> rfl

@[simp] theorem diagnostics_exit : b.exit.diagnostics = b.diagnostics := by
  unfold exit
  split
  · rw [diagnostics_register]
  · rfl

end Steps

section Parts

variable (b : FlowBuilder) (n : Node)

/-- What a part of the configuration leaves out: itself, unless it is an option. -/
def omittedInConfig : List Omission :=
  match n.kind with
  | .configOption => []
  | _ => [⟨n, .config⟩]

theorem diagnostics_addConfigPart :
    (b.addConfigPart n).diagnostics =
      b.diagnostics ++ (omittedInConfig n).map Omission.diagnostic := by
  unfold addConfigPart omittedInConfig
  cases n.kind with
  | configOption => cases n.children <;> simp
  | _ => rfl

theorem diagnostics_addServiceStubPart :
    (b.addServiceStubPart n).diagnostics =
      b.diagnostics ++ (Omission.ofError .service n).map Omission.diagnostic := by
  unfold addServiceStubPart Omission.ofError
  cases n.kind with
  | error => rfl
  | _ => simp

theorem diagnostics_addServiceStub :
    (b.addServiceStub n).diagnostics =
      b.diagnostics ++
        (n.children.flatMap (Omission.ofError .service)).map Omission.diagnostic := by
  unfold addServiceStub
  rw [diagnostics_exit, Omission.diagnostics_foldl diagnostics_addServiceStubPart]
  rfl

/-- What a part of a system leaves out. -/
def omittedInSystem : List Omission :=
  match n.kind with
  | .flowSystemService => n.children.flatMap (Omission.ofError .service)
  | _ => Omission.ofError .system n

theorem diagnostics_addSystemPart :
    (b.addSystemPart n).diagnostics =
      b.diagnostics ++ (omittedInSystem n).map Omission.diagnostic := by
  unfold addSystemPart omittedInSystem Omission.ofError
  cases n.kind with
  | flowSystemService => exact diagnostics_addServiceStub b n
  | error => rfl
  | _ => simp

/-- What a part of a block of systems leaves out. -/
def omittedInSystems : List Omission :=
  match n.kind with
  | .flowSystem =>
      match n.child .flowSystemName with
      | none => []
      | some _ => n.children.flatMap omittedInSystem
  | _ => Omission.ofError .systems n

theorem diagnostics_addSystemsPart :
    (b.addSystemsPart n).diagnostics =
      b.diagnostics ++ (omittedInSystems n).map Omission.diagnostic := by
  unfold addSystemsPart omittedInSystems Omission.ofError
  cases n.kind with
  | flowSystem =>
      simp only
      unfold addSystem
      cases n.child .flowSystemName with
      | none => simp
      | some name =>
          simp only
          rw [diagnostics_exit, Omission.diagnostics_foldl diagnostics_addSystemPart]
          simp
  | error => rfl
  | _ => simp

theorem diagnostics_addStartPart :
    (b.addStartPart n).diagnostics =
      b.diagnostics ++ (Omission.ofError .start n).map Omission.diagnostic := by
  unfold addStartPart Omission.ofError
  cases n.kind with
  | error => rfl
  | _ => simp

/-- What a start leaves out. -/
def omittedInStart : List Omission :=
  match n.child .flowStartName with
  | none => []
  | some _ => n.children.flatMap (Omission.ofError .start)

theorem diagnostics_addStart :
    (b.addStart n).diagnostics = b.diagnostics ++ (omittedInStart n).map Omission.diagnostic := by
  unfold addStart omittedInStart
  cases n.child .flowStartName with
  | none => simp
  | some name =>
      simp only
      rw [diagnostics_exit, Omission.diagnostics_foldl diagnostics_addStartPart]
      simp

theorem diagnostics_addEndPart :
    (b.addEndPart n).diagnostics =
      b.diagnostics ++ (Omission.ofError .ends n).map Omission.diagnostic := by
  unfold addEndPart Omission.ofError
  cases n.kind with
  | error => rfl
  | _ => simp

theorem diagnostics_addEnd :
    (b.addEnd n).diagnostics =
      b.diagnostics ++ (n.children.flatMap (Omission.ofError .ends)).map Omission.diagnostic := by
  unfold addEnd
  rw [diagnostics_exit, Omission.diagnostics_foldl diagnostics_addEndPart]
  simp

end Parts

mutual

/-- What a part of a rule or of a branch leaves out. -/
def omittedInRulePart : Node → List Omission
  | ⟨.flowWhenIf, _, _, parts⟩ => omittedInRule parts
  | ⟨.flowWhenElseIf, _, _, parts⟩ => omittedInRule parts
  | ⟨.flowWhenElse, _, _, parts⟩ => omittedInRule parts
  | n => Omission.ofError .when n

/-- What the parts of a rule or of a branch leave out. -/
def omittedInRule : List Node → List Omission
  | [] => []
  | n :: rest => omittedInRulePart n ++ omittedInRule rest

end

mutual

theorem diagnostics_addRulePart (b : FlowBuilder) :
    (n : Node) →
      (addRulePart n b).diagnostics =
        b.diagnostics ++ (omittedInRulePart n).map Omission.diagnostic
  | ⟨k, text, span, parts⟩ => by
      cases k with
      | flowWhenIf =>
          rw [addRulePart, omittedInRulePart, diagnostics_exit, diagnostics_addRuleParts,
            diagnostics_enter]
      | flowWhenElseIf =>
          rw [addRulePart, omittedInRulePart, diagnostics_exit, diagnostics_addRuleParts,
            diagnostics_enter]
      | flowWhenElse =>
          rw [addRulePart, omittedInRulePart, diagnostics_exit, diagnostics_addRuleParts,
            diagnostics_enter]
      | error =>
          rw [addRulePart, omittedInRulePart] <;> simp [Omission.ofError, Omission.diagnostic]
      | _ => rw [addRulePart, omittedInRulePart] <;> simp [Omission.ofError]

theorem diagnostics_addRuleParts (b : FlowBuilder) :
    (ns : List Node) →
      (addRuleParts ns b).diagnostics = b.diagnostics ++ (omittedInRule ns).map Omission.diagnostic
  | [] => by simp [addRuleParts, omittedInRule]
  | n :: rest => by
      rw [addRuleParts, omittedInRule, diagnostics_addRuleParts _ rest, diagnostics_addRulePart b n,
        List.map_append, List.append_assoc]

end

section Flows

variable (b : FlowBuilder) (n : Node)

theorem diagnostics_addWhen :
    (b.addWhen n).diagnostics =
      b.diagnostics ++ (omittedInRule n.children).map Omission.diagnostic := by
  unfold addWhen
  simp [diagnostics_addRuleParts]

/-- What a part of a flow leaves out. -/
def omittedInFlow : List Omission :=
  match n.kind with
  | .flowSystems => n.children.flatMap omittedInSystems
  | .flowStart => omittedInStart n
  | .flowWhen => omittedInRule n.children
  | .flowEnd => n.children.flatMap (Omission.ofError .ends)
  | _ => Omission.ofError .flow n

theorem diagnostics_addFlowPart :
    (b.addFlowPart n).diagnostics = b.diagnostics ++ (omittedInFlow n).map Omission.diagnostic := by
  unfold addFlowPart omittedInFlow Omission.ofError
  cases n.kind with
  | flowSystems => exact Omission.diagnostics_foldl diagnostics_addSystemsPart n.children b
  | flowStart => exact diagnostics_addStart b n
  | flowWhen => exact diagnostics_addWhen b n
  | flowEnd => exact diagnostics_addEnd b n
  | error => rfl
  | _ => simp

/-- What a top-level node leaves out. -/
def omittedInTopLevel : List Omission :=
  match n.kind with
  | .globalJavadoc | .importDecl => []
  | .config => n.children.flatMap omittedInConfig
  | .flow =>
      match n.child .flowName with
      | none => [⟨n, .flows⟩]
      | some _ => n.children.flatMap omittedInFlow
  | _ => [⟨n, .document⟩]

theorem diagnostics_addTopLevel :
    (b.addTopLevel n).diagnostics =
      b.diagnostics ++ (omittedInTopLevel n).map Omission.diagnostic := by
  unfold addTopLevel omittedInTopLevel
  cases n.kind with
  | globalJavadoc => simp
  | importDecl => simp [addImport]
  | config => exact Omission.diagnostics_foldl diagnostics_addConfigPart n.children b
  | flow =>
      simp only
      unfold addFlow
      cases n.child .flowName with
      | none => rfl
      | some name =>
          simp only
          rw [diagnostics_exit, Omission.diagnostics_foldl diagnostics_addFlowPart]
          simp
  | _ => rfl

end Flows

/-- What the document of a tree leaves out. -/
def omissions (tree : Node) : List Omission := tree.children.flatMap omittedInTopLevel

/-- The diagnostics of a document are those of what it leaves out. -/
theorem diagnostics_ofTree (tree : Node) :
    (ofTree tree).diagnostics = (omissions tree).map Omission.diagnostic :=
  Omission.diagnostics_foldl diagnostics_addTopLevel tree.children {}

end FlowBuilder

end EntityFlow
