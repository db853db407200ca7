import EntityFlow.Document.EntityBuilder
import EntityFlow.Document.FlowBuilder

/-!
# Balance of scopes

A builder keeps the declarations that are open as the frames of its scope, and closing takes the
frame on top, whatever it is. That it is always the right one is shown here, for trees of any shape.
What tells a frame from others is its construct: its sort and its name, and not what has been put
into it (`EntityFrame.construct`, `FlowFrame.construct`). The constructs of the open frames are the
shape of a scope; no step but opening and closing changes it.

A visit of a declaration opens at most one frame, fills it and closes it (`EntityVisit`,
`FlowVisit`). The main statement is `scope_balanced`: what a visit closes is its own frame, on top
of the frames that it found, so the frames that are left are those; and after a whole tree no frame
is open.
-/

namespace EntityFlow

/-! ## Shapes of scopes -/

namespace Scope

variable {F C : Type} {construct : F → C} {s : Scope F}

/-- The constructs of the open frames, the innermost first. -/
def shape (construct : F → C) (s : Scope F) : List C := s.frames.map construct

theorem shape_changeTop {change : F → F}
    (same : ∀ frame, construct (change frame) = construct frame) :
    (s.changeTop change).shape construct = s.shape construct := by
  unfold changeTop shape
  cases s.frames with
  | nil => rfl
  | cons frame outer =>
      show construct (change frame) :: outer.map construct = construct frame :: outer.map construct
      rw [same frame]

theorem shape_changeNearest {change : F → Option F}
    (same : ∀ frame changed, change frame = some changed → construct changed = construct frame) :
    (s.changeNearest change).shape construct = s.shape construct := by
  unfold changeNearest changeNearest?
  cases found : changeFirst? change s.frames with
  | none => rfl
  | some frames => exact map_changeFirst? same found

/-- A scope with a construct on top of some others: closing takes that one away. -/
theorem exit_of_shape {c : C} {outer : List C} (shaped : s.shape construct = c :: outer) :
    ∃ own below, s.frames = own :: below ∧ construct own = c ∧ below.map construct = outer ∧
      s.exit = (some own, ⟨below⟩) := by
  obtain ⟨own, below, frames, isOwn, rest⟩ := List.map_eq_cons_iff.mp shaped
  refine ⟨own, below, frames, isOwn, rest, ?_⟩
  unfold exit
  rw [frames]
  rfl

/-- A frame is opened on the frames that were found and filled: it is still the frame on top, and
below it are still those that were found. -/
structure Nests (construct : F → C) (found opened filled : Scope F) (own : F) (below : List F) :
    Prop where
  opens : ∃ pushed outer, opened.frames = pushed :: outer ∧ construct pushed = construct own ∧
    outer.map construct = found.shape construct
  fills : filled.frames = own :: below
  finds : below.map construct = found.shape construct

/-- What keeps the shape between opening and closing nests. -/
theorem Nests.of_shape {found opened filled : Scope F} {pushed : F} {outer : List F}
    (frames : opened.frames = pushed :: outer) (same : outer.map construct = found.shape construct)
    (kept : filled.shape construct = opened.shape construct) :
    ∃ own below, Nests construct found opened filled own below ∧
      filled.exit = (some own, ⟨below⟩) := by
  have shaped : filled.shape construct = construct pushed :: found.shape construct := by
    rw [kept, shape, frames, List.map_cons, same]
  obtain ⟨own, below, top, isOwn, rest, closed⟩ := exit_of_shape shaped
  exact ⟨own, below, ⟨⟨pushed, outer, frames, isOwn.symm, same⟩, top, rest⟩, closed⟩

end Scope

/-! ## Entity documents -/

/-- The sort and the name of a declaration of the entity language. -/
inductive EntityConstruct
  | entity (part : Section) (name : String)
  | enum (name : String)
  | service (name : String)
  | method (name : String)
deriving DecidableEq

/-- The construct that a frame was opened for. -/
def EntityFrame.construct : EntityFrame → EntityConstruct
  | .entity part record _ => .entity part record.name
  | .enum record => .enum record.name
  | .service record => .service record.name
  | .method record => .method record.name

namespace EntityBuilder

/-- The constructs that are open, the innermost first. -/
def shape (b : EntityBuilder) : List EntityConstruct := b.scope.shape EntityFrame.construct

section Steps

variable (b : EntityBuilder)

@[simp] theorem shape_skip (n : Node) (context : Context) :
    (b.skip n context).shape = b.shape := rfl

@[simp] theorem shape_locate (path : String) (span : Span) : (b.locate path span).shape = b.shape :=
  rfl

@[simp] theorem shape_locateNamed (path : String) (n name : Node) :
    (b.locateNamed path n name).shape = b.shape := rfl

@[simp] theorem shape_enter (frame : EntityFrame) :
    (b.enter frame).shape = frame.construct :: b.shape := rfl

theorem shape_changeTop {change : EntityFrame → EntityFrame}
    (same : ∀ frame, (change frame).construct = frame.construct) :
    (b.changeTop change).shape = b.shape :=
  Scope.shape_changeTop same

theorem shape_changeNearest {change : EntityFrame → Option EntityFrame}
    (same : ∀ frame changed, change frame = some changed → changed.construct = frame.construct) :
    (b.changeNearest change).shape = b.shape :=
  Scope.shape_changeNearest same

/-- Steps that keep the shape make a walk that keeps it. -/
theorem shape_foldl {α : Type} {step : EntityBuilder → α → EntityBuilder}
    (each : ∀ b item, (step b item).shape = b.shape) (items : List α) :
    (items.foldl step b).shape = b.shape := by
  induction items generalizing b with
  | nil => rfl
  | cons item rest ih => exact (ih (step b item)).trans (each b item)

@[simp] theorem shape_applyOptions (n : Node) : (b.applyOptions n).shape = b.shape := by
  apply shape_foldl
  intro b option
  apply shape_changeTop
  intro frame
  cases frame <;> rfl

@[simp] theorem shape_skipErrors (context : Context) (ns : List Node) :
    (b.skipErrors context ns).shape = b.shape :=
  shape_foldl b (fun b n => shape_skip b n context) _

@[simp] theorem shape_addField? (field : Field) :
    (b.changeNearest (EntityFrame.addField? field)).shape = b.shape := by
  apply shape_changeNearest
  intro frame changed added
  cases frame <;> cases added
  rfl

@[simp] theorem shape_shadow? (part : Section) (name : String) :
    (b.changeNearest (EntityFrame.shadow? part name)).shape = b.shape := by
  apply shape_changeNearest
  intro frame changed marked
  cases frame with
  | entity p record shadowed =>
      obtain ⟨_, known⟩ := Option.ite_none_right_eq_some.mp marked
      cases known
      rfl
  | enum => cases marked
  | service => cases marked
  | method => cases marked

/-- A finished record is put to where it belongs, and what is open stays open. -/
@[simp] theorem shape_register (frame : EntityFrame) : (b.register frame).shape = b.shape := by
  cases frame with
  | entity part record shadowed => cases shadowed <;> rfl
  | enum record => rfl
  | service record => rfl
  | method record =>
      apply shape_changeNearest
      intro frame changed added
      cases frame <;> cases added
      rfl

/-- The frame of an entity comes on top of those that were open. -/
theorem frames_enterEntity (part : Section) (record : Entity) :
    ∃ outer, (b.enterEntity part record).scope.frames = .entity part record false :: outer ∧
      outer.map EntityFrame.construct = b.shape :=
  ⟨_, rfl, shape_shadow? { b with document := b.document.putEntity part record.name {} } part
    record.name⟩

@[simp] theorem shape_enterEntity (part : Section) (record : Entity) :
    (b.enterEntity part record).shape = .entity part record.name :: b.shape := by
  obtain ⟨outer, frames, same⟩ := b.frames_enterEntity part record
  rw [shape, Scope.shape, frames, List.map_cons, same]
  rfl

/-- Closing takes the construct on top away. -/
theorem shape_exit {filled : EntityBuilder} {c : EntityConstruct} {outer : List EntityConstruct}
    (shaped : filled.shape = c :: outer) : filled.exit.shape = outer := by
  obtain ⟨own, below, _, _, rest, closed⟩ := Scope.exit_of_shape shaped
  unfold exit
  rw [closed]
  exact (shape_register _ own).trans rest

end Steps

/-! ### Walks -/

mutual

theorem shape_addField (n : Node) (b : EntityBuilder) : (addField n b).shape = b.shape := by
  obtain ⟨kind, text, span, parts⟩ := n
  rw [addField, shape_addEmbedded, shape_addField?]

theorem shape_addEmbedded (field : Field) (parts : List Node) (b : EntityBuilder) :
    (addEmbedded field parts b).shape = b.shape := by
  match parts with
  | [] => rw [addEmbedded]
  | ⟨kind, text, span, body⟩ :: rest =>
      by_cases nested : kind = .nestedField
      · subst nested
        rw [addEmbedded]
        apply shape_exit
        rw [shape_addFields, shape_enterEntity, shape_locate]
      · rw [addEmbedded, shape_addEmbedded field rest b]
        simp [nested]

theorem shape_addFields (ns : List Node) (b : EntityBuilder) :
    (addFields ns b).shape = b.shape := by
  match ns with
  | [] => rw [addFields]
  | n :: rest =>
      rw [addFields, shape_addFields rest]
      split
      · exact shape_addField n b
      · exact shape_skip b n .fieldList
      · rfl

end

section Visits

variable (n : Node) (b : EntityBuilder)

theorem shape_addEnumPart : (b.addEnumPart n).shape = b.shape := by
  unfold addEnumPart addEnumValue
  split
  · split
    · rfl
    · apply shape_changeTop
      intro frame
      cases frame <;> rfl
  · rfl
  · rfl

theorem shape_addRelationships : (b.addRelationships n).shape = b.shape := by
  apply shape_foldl
  intro b part
  unfold addRelationshipPart addRelationship
  split
  · split <;> rfl
  · rfl
  · rfl

theorem shape_addConstant : (b.addConstant n).shape = b.shape := by
  unfold addConstant
  split <;> rfl

theorem shape_addMethod (service : String) : (addMethod service b n).shape = b.shape := by
  unfold addMethod
  split
  · rfl
  · apply shape_exit
    rw [shape_skipErrors, shape_applyOptions, shape_enter, shape_locateNamed]

theorem shape_addMethods (service : String) (aggregates : List String) :
    (b.addMethods n service aggregates).shape = b.shape := by
  unfold addMethods
  split
  · exact shape_foldl b (fun b m => shape_register b (.method m)) _
  · exact shape_foldl b (fun b m => shape_addMethod m b service) _

end Visits

end EntityBuilder

/-- The visits of a builder of entity documents. -/
inductive EntityVisit
  | constant
  | entity (part : Section) (nameKind : Node.Kind)
  | field
  | enum
  | relationships
  | service
  | method (owner : String)

namespace EntityVisit

open EntityBuilder

/-- The builder after the visit of a node. -/
def run (visit : EntityVisit) (n : Node) (b : EntityBuilder) : EntityBuilder :=
  match visit with
  | .constant => b.addConstant n
  | .entity part nameKind => b.addEntity part nameKind n
  | .field => addField n b
  | .enum => b.addEnum n
  | .relationships => b.addRelationships n
  | .service => b.addService n
  | .method owner => addMethod owner b n

/-- The builder when the frame of a visit has just been opened, if the visit opens one. -/
def opened? (visit : EntityVisit) (n : Node) (b : EntityBuilder) : Option EntityBuilder :=
  match visit with
  | .constant | .relationships => none
  | .entity part nameKind => (n.child nameKind).map fun name =>
      (b.locateNamed (part.key ++ "." ++ name.text) n name).enterEntity part
        (declaredEntity n name.text)
  | .field => (n.child .nestedField).map fun body =>
      let field := Field.ofNode n
      let b := b.changeNearest (EntityFrame.addField? field)
      (b.locate (b.currentPart.key ++ "." ++ field.type) body.span).enterEntity b.currentPart
        (embeddedEntity field body.children)
  | .enum => (n.child .enumName).map fun name =>
      (b.locateNamed ("enums." ++ name.text) n name).enter
        (.enum { Enum.named name.text with documentation := n.documentation? })
  | .service => (n.child .serviceName).map fun name =>
      (b.locateNamed ("services." ++ name.text) n name).enter
        (.service { Service.named name.text with
          documentation := n.documentation?
          aggregates := ((n.child .serviceAggregates).map (·.children.map (·.text))).getD [] })
  | .method owner => (n.child .serviceMethodName).map fun name =>
      (b.locateNamed ("services." ++ owner ++ ".methods." ++ name.text) n name).enter
        (.method (declaredMethod n name.text))

/-- What a visit puts into the frame that it has opened. -/
def fill (visit : EntityVisit) (n : Node) (opened : EntityBuilder) : EntityBuilder :=
  match visit with
  | .constant | .relationships => opened
  | .entity _ _ => addFields n.children (opened.applyOptions n)
  | .field => addFields (((n.child .nestedField).map (·.children)).getD []) opened
  | .enum => n.children.foldl addEnumPart (opened.applyOptions n)
  | .service =>
      ((opened.applyOptions n).addMethods n ((n.childText .serviceName).getD "")
        (((n.child .serviceAggregates).map (·.children.map (·.text))).getD [])).skipErrors .service
          n.children
  | .method _ => (opened.applyOptions n).skipErrors .method n.children

theorem addEmbedded_eq (field : Field) (parts : List Node) (b : EntityBuilder) :
    addEmbedded field parts b =
      match parts.find? (·.kind == .nestedField) with
      | none => b
      | some body =>
          (addFields body.children ((b.locate (b.currentPart.key ++ "." ++ field.type)
            body.span).enterEntity b.currentPart (embeddedEntity field body.children))).exit := by
  induction parts with
  | nil => rw [addEmbedded]; rfl
  | cons part rest ih =>
      obtain ⟨kind, text, span, body⟩ := part
      by_cases nested : kind = .nestedField
      · subst nested
        rw [addEmbedded]
        rfl
      · rw [addEmbedded, ih, List.find?_cons_of_neg (by simpa using nested)]
        simp [nested]

/-- A visit that opens a frame fills and closes it. -/
theorem run_of_opened? {visit : EntityVisit} {n : Node} {b opened : EntityBuilder}
    (opens : visit.opened? n b = some opened) : visit.run n b = (visit.fill n opened).exit := by
  cases visit with
  | constant => cases opens
  | relationships => cases opens
  | entity part nameKind =>
      obtain ⟨name, known, rfl⟩ := Option.map_eq_some_iff.mp opens
      simp only [run, fill, addEntity, known]
  | field =>
      obtain ⟨body, known, rfl⟩ := Option.map_eq_some_iff.mp opens
      obtain ⟨kind, text, span, parts⟩ := n
      have found : parts.find? (·.kind == .nestedField) = some body := known
      rw [run, addField, addEmbedded_eq, found, fill, known]
      rfl
  | enum =>
      obtain ⟨name, known, rfl⟩ := Option.map_eq_some_iff.mp opens
      simp only [run, fill, addEnum, known]
  | service =>
      obtain ⟨name, known, rfl⟩ := Option.map_eq_some_iff.mp opens
      simp only [run, fill, addService, known, Node.childText, Option.map_some, Option.getD_some]
  | method owner =>
      obtain ⟨name, known, rfl⟩ := Option.map_eq_some_iff.mp opens
      simp only [run, fill, addMethod, known]

theorem shape_fill (visit : EntityVisit) (n : Node) (b : EntityBuilder) :
    (visit.fill n b).shape = b.shape := by
  cases visit with
  | constant => rfl
  | relationships => rfl
  | entity => exact (shape_addFields _ _).trans (shape_applyOptions b n)
  | field => exact shape_addFields _ b
  | enum =>
      exact (shape_foldl _ (fun b part => shape_addEnumPart part b) _).trans
        (shape_applyOptions b n)
  | service =>
      rw [fill, shape_skipErrors, shape_addMethods, shape_applyOptions]
  | method => rw [fill, shape_skipErrors, shape_applyOptions]

/-- The frame that a visit opens comes on top of those that were open. -/
theorem frames_of_opened? {visit : EntityVisit} {n : Node} {b opened : EntityBuilder}
    (opens : visit.opened? n b = some opened) :
    ∃ pushed outer, opened.scope.frames = pushed :: outer ∧
      outer.map EntityFrame.construct = b.shape := by
  cases visit with
  | constant => cases opens
  | relationships => cases opens
  | entity part nameKind =>
      obtain ⟨name, _, rfl⟩ := Option.map_eq_some_iff.mp opens
      exact ⟨_, frames_enterEntity _ part _⟩
  | field =>
      obtain ⟨body, _, rfl⟩ := Option.map_eq_some_iff.mp opens
      obtain ⟨outer, frames, same⟩ := frames_enterEntity _ _ _
      exact ⟨_, outer, frames, same.trans (shape_addField? b (Field.ofNode n))⟩
  | enum =>
      obtain ⟨name, _, rfl⟩ := Option.map_eq_some_iff.mp opens
      exact ⟨_, _, rfl, rfl⟩
  | service =>
      obtain ⟨name, _, rfl⟩ := Option.map_eq_some_iff.mp opens
      exact ⟨_, _, rfl, rfl⟩
  | method owner =>
      obtain ⟨name, _, rfl⟩ := Option.map_eq_some_iff.mp opens
      exact ⟨_, _, rfl, rfl⟩

/-- A visit that opens no frame leaves those that are open. -/
theorem shape_of_opened?_none {visit : EntityVisit} {n : Node} {b : EntityBuilder}
    (opens : visit.opened? n b = none) : (visit.run n b).shape = b.shape := by
  cases visit with
  | constant => exact shape_addConstant n b
  | relationships => exact shape_addRelationships n b
  | field => exact shape_addField n b
  | entity part nameKind =>
      have unnamed := Option.map_eq_none_iff.mp opens
      simp only [run, addEntity, unnamed, shape_skip]
  | enum =>
      have unnamed := Option.map_eq_none_iff.mp opens
      simp only [run, addEnum, unnamed, shape_skip]
  | service =>
      have unnamed := Option.map_eq_none_iff.mp opens
      simp only [run, addService, unnamed, shape_skip]
  | method owner =>
      have unnamed := Option.map_eq_none_iff.mp opens
      simp only [run, addMethod, unnamed]

/-- A visit closes the frame that it has opened, filled, on top of those that it found. -/
theorem nests {visit : EntityVisit} {n : Node} {b opened : EntityBuilder}
    (opens : visit.opened? n b = some opened) :
    ∃ own below,
      Scope.Nests EntityFrame.construct b.scope opened.scope (visit.fill n opened).scope own below ∧
      visit.run n b =
        EntityBuilder.register own { visit.fill n opened with scope := ⟨below⟩ } := by
  obtain ⟨pushed, outer, frames, same⟩ := frames_of_opened? opens
  obtain ⟨own, below, nests, closed⟩ :=
    Scope.Nests.of_shape frames same (visit.shape_fill n opened)
  refine ⟨own, below, nests, ?_⟩
  rw [run_of_opened? opens, EntityBuilder.exit, closed]

theorem shape_run (visit : EntityVisit) (n : Node) (b : EntityBuilder) :
    (visit.run n b).shape = b.shape := by
  cases opens : visit.opened? n b with
  | none => exact shape_of_opened?_none opens
  | some opened =>
      obtain ⟨own, below, nests, closed⟩ := EntityVisit.nests opens
      rw [closed, shape_register]
      exact nests.finds

end EntityVisit

namespace EntityBuilder

theorem shape_addTopLevel (b : EntityBuilder) (n : Node) : (b.addTopLevel n).shape = b.shape := by
  unfold addTopLevel
  split
  · rfl
  · exact EntityVisit.shape_run .constant n b
  · exact EntityVisit.shape_run (.entity .entities .entityName) n b
  · exact EntityVisit.shape_run (.entity .events .eventName) n b
  · exact EntityVisit.shape_run (.entity .inputs .inputName) n b
  · exact EntityVisit.shape_run .enum n b
  · exact EntityVisit.shape_run .relationships n b
  · exact EntityVisit.shape_run .service n b
  · exact EntityVisit.shape_run .service n b
  · rfl

/-- After a whole tree no frame is open. -/
theorem frames_ofTree (tree : Node) : (ofTree tree).scope.frames = [] :=
  List.map_eq_nil_iff.mp (shape_foldl {} shape_addTopLevel tree.children)

end EntityBuilder

/-! ## Flow documents -/

/-- The sort of a construct of the flow language and its name, its triggers or its condition. -/
inductive FlowConstruct
  | flow (name : String)
  | system (name : String)
  | serviceStub (name : String)
  | start (name : String)
  | when (triggers : List String)
  | conditional (condition : String)
  | elseIf (condition : String)
  | otherwise
  | ending
deriving DecidableEq

/-- The construct that a frame was opened for. -/
def FlowFrame.construct : FlowFrame → FlowConstruct
  | .flow record => .flow record.name
  | .system record => .system record.name
  | .serviceStub record => .serviceStub record.name
  | .start record => .start record.name
  | .when record => .when record.triggers
  | .conditional record => .conditional record.condition
  | .elseIf record => .elseIf record.condition
  | .otherwise _ => .otherwise
  | .ending _ => .ending

namespace FlowBuilder

/-- The constructs that are open, the innermost first. -/
def shape (b : FlowBuilder) : List FlowConstruct := b.scope.shape FlowFrame.construct

section Steps

variable (b : FlowBuilder)

@[simp] theorem shape_skip (n : Node) (context : Context) :
    (b.skip n context).shape = b.shape := rfl

@[simp] theorem shape_locate (path : String) (span : Span) : (b.locate path span).shape = b.shape :=
  rfl

@[simp] theorem shape_enter (frame : FlowFrame) :
    (b.enter frame).shape = frame.construct :: b.shape := rfl

theorem shape_changeTop {change : FlowFrame → Option FlowFrame}
    (same : ∀ frame changed, change frame = some changed → changed.construct = frame.construct) :
    (b.changeTop change).shape = b.shape := by
  apply Scope.shape_changeTop
  intro frame
  cases known : change frame with
  | none => rfl
  | some changed => exact same frame changed known

theorem shape_changeNearest {change : FlowFrame → Option FlowFrame}
    (same : ∀ frame changed, change frame = some changed → changed.construct = frame.construct) :
    (b.changeNearest change).shape = b.shape :=
  Scope.shape_changeNearest same

/-- Steps that keep the shape make a walk that keeps it. -/
theorem shape_foldl {step : FlowBuilder → Node → FlowBuilder}
    (each : ∀ b n, (step b n).shape = b.shape) (ns : List Node) :
    (ns.foldl step b).shape = b.shape := by
  induction ns generalizing b with
  | nil => rfl
  | cons n rest ih => exact (ih (step b n)).trans (each b n)

@[simp] theorem shape_applyOptions (n : Node) : (b.applyOptions n).shape = b.shape := by
  apply shape_changeTop
  intro frame changed added
  cases added
  cases frame <;> rfl

@[simp] theorem shape_changeActions (change : Actions → Actions) :
    (b.changeActions change).shape = b.shape := by
  apply shape_changeNearest
  intro frame changed added
  cases frame <;> cases added <;> rfl

/-- A finished record is handed to its owner, and what is open stays open. -/
@[simp] theorem shape_register (frame : FlowFrame) : (b.register frame).shape = b.shape := by
  cases frame with
  | flow record => rfl
  | _ =>
      apply shape_changeNearest
      intro owner changed handed
      cases owner <;> cases handed
      rfl

/-- Closing takes the construct on top away. -/
theorem shape_exit {filled : FlowBuilder} {c : FlowConstruct} {outer : List FlowConstruct}
    (shaped : filled.shape = c :: outer) : filled.exit.shape = outer := by
  obtain ⟨own, below, _, _, rest, closed⟩ := Scope.exit_of_shape shaped
  unfold exit
  rw [closed]
  exact (shape_register _ own).trans rest

end Steps

/-! ### Walks -/

section Parts

variable (b : FlowBuilder) (n : Node)

theorem shape_addServiceStubPart : (b.addServiceStubPart n).shape = b.shape := by
  unfold addServiceStubPart
  split
  · apply shape_changeTop
    intro frame changed added
    cases frame <;> cases added
    rfl
  · rfl
  · rfl

theorem shape_addServiceStub : (b.addServiceStub n).shape = b.shape := by
  apply shape_exit
  rw [shape_foldl _ shape_addServiceStubPart, shape_applyOptions, shape_enter]

theorem shape_addSystemPart : (b.addSystemPart n).shape = b.shape := by
  unfold addSystemPart
  split
  · apply shape_changeTop
    intro frame changed added
    cases frame <;> cases added
    rfl
  · exact shape_addServiceStub b n
  · apply shape_changeTop
    intro frame changed added
    cases frame <;> cases added
    rfl
  · rfl
  · rfl

theorem shape_addStartPart : (b.addStartPart n).shape = b.shape := by
  unfold addStartPart
  split
  · apply shape_changeNearest
    intro frame changed added
    cases frame <;> cases added
    rfl
  · rfl
  · rfl

theorem shape_addEndPart : (b.addEndPart n).shape = b.shape := by
  unfold addEndPart
  have outcome (change : End → End) :
      (b.changeTop (FlowFrame.changeEnding? change)).shape = b.shape := by
    apply shape_changeTop
    intro frame changed added
    cases frame <;> cases added
    rfl
  dsimp only
  split
  · exact outcome _
  · exact outcome _
  · exact outcome _
  · rfl
  · rfl

end Parts

mutual

theorem shape_addRulePart (b : FlowBuilder) : (n : Node) → (addRulePart n b).shape = b.shape
  | ⟨kind, text, span, parts⟩ => by
      have branch (frame : FlowFrame) :
          (addRuleParts parts (b.enter frame)).exit.shape = b.shape := by
        apply shape_exit
        rw [shape_addRuleParts _ parts, shape_enter]
      cases kind with
      | flowWhenIf => rw [addRulePart, branch]
      | flowWhenElseIf => rw [addRulePart, branch]
      | flowWhenElse => rw [addRulePart, branch]
      | _ => rw [addRulePart] <;> simp

theorem shape_addRuleParts (b : FlowBuilder) :
    (ns : List Node) → (addRuleParts ns b).shape = b.shape
  | [] => by rw [addRuleParts]
  | n :: rest => by rw [addRuleParts, shape_addRuleParts _ rest, shape_addRulePart b n]

end

section Constructs

variable (b : FlowBuilder) (n : Node)

theorem shape_addSystem : (b.addSystem n).shape = b.shape := by
  unfold addSystem
  split
  · rfl
  · apply shape_exit
    rw [shape_foldl _ shape_addSystemPart, shape_applyOptions, shape_enter, shape_locate]

theorem shape_addSystemsPart : (b.addSystemsPart n).shape = b.shape := by
  unfold addSystemsPart
  split
  · exact shape_addSystem b n
  · rfl
  · rfl

theorem shape_addStart : (b.addStart n).shape = b.shape := by
  unfold addStart
  split
  · rfl
  · apply shape_exit
    rw [shape_foldl _ shape_addStartPart, shape_applyOptions, shape_enter, shape_locate]

theorem shape_addWhen : (b.addWhen n).shape = b.shape := by
  apply shape_exit
  rw [shape_addRuleParts, shape_applyOptions, shape_enter]

theorem shape_addEnd : (b.addEnd n).shape = b.shape := by
  apply shape_exit
  rw [shape_foldl _ shape_addEndPart, shape_applyOptions, shape_enter]

theorem shape_addFlowPart : (b.addFlowPart n).shape = b.shape := by
  unfold addFlowPart
  split
  · exact shape_foldl b shape_addSystemsPart n.children
  · exact shape_addStart b n
  · exact shape_addWhen b n
  · exact shape_addEnd b n
  · rfl
  · rfl

end Constructs

end FlowBuilder

/-- The visits of a builder of flow documents. -/
inductive FlowVisit
  | importDecl
  | config
  | flow
  | system
  | serviceStub
  | start
  | when
  | rulePart
  | ending

namespace FlowVisit

open FlowBuilder

/-- The builder after the visit of a node. -/
def run (visit : FlowVisit) (n : Node) (b : FlowBuilder) : FlowBuilder :=
  match visit with
  | .importDecl => b.addImport n
  | .config => b.addConfig n
  | .flow => b.addFlow n
  | .system => b.addSystem n
  | .serviceStub => b.addServiceStub n
  | .start => b.addStart n
  | .when => b.addWhen n
  | .rulePart => addRulePart n b
  | .ending => b.addEnd n

/-- The builder when the frame of a visit has just been opened, if the visit opens one. -/
def opened? (visit : FlowVisit) (n : Node) (b : FlowBuilder) : Option FlowBuilder :=
  match visit with
  | .importDecl | .config => none
  | .flow => (n.child .flowName).map fun name =>
      ((b.locate ("flows." ++ name.text ++ ".name") name.span).locate ("flows." ++ name.text)
        n.span).enter (.flow { Flow.named name.text with documentation := n.documentation? })
  | .system => (n.child .flowSystemName).map fun name =>
      (b.locate (b.flowPath ++ ".systems." ++ name.text) n.span).enter
        (.system { name := name.text, documentation := n.documentation? })
  | .serviceStub =>
      some (b.enter (.serviceStub
        { name := (n.childText .flowSystemServiceName).getD ServiceStub.defaultName }))
  | .start => (n.child .flowStartName).map fun name =>
      (b.locate (b.flowPath ++ ".starts." ++ name.text) n.span).enter
        (.start { Start.named name.text with documentation := n.documentation? })
  | .when =>
      some (b.enter (.when
        { triggers := ((n.child .flowWhenTrigger).map (names · .flowWhenEventTrigger)).getD [] }))
  | .rulePart =>
      match n.kind with
      | .flowWhenIf => some (b.enter (.conditional { condition := condition n.children }))
      | .flowWhenElseIf => some (b.enter (.elseIf { condition := condition n.children }))
      | .flowWhenElse => some (b.enter (.otherwise {}))
      | _ => none
  | .ending => some (b.enter (.ending {}))

/-- What a visit puts into the frame that it has opened. -/
def fill (visit : FlowVisit) (n : Node) (opened : FlowBuilder) : FlowBuilder :=
  match visit with
  | .importDecl | .config => opened
  | .flow => n.children.foldl addFlowPart (opened.applyOptions n)
  | .system => n.children.foldl addSystemPart (opened.applyOptions n)
  | .serviceStub => n.children.foldl addServiceStubPart (opened.applyOptions n)
  | .start => n.children.foldl addStartPart (opened.applyOptions n)
  | .when => addRuleParts n.children (opened.applyOptions n)
  | .rulePart => addRuleParts n.children opened
  | .ending => n.children.foldl addEndPart (opened.applyOptions n)

/-- A visit that opens a frame fills and closes it. -/
theorem run_of_opened? {visit : FlowVisit} {n : Node} {b opened : FlowBuilder}
    (opens : visit.opened? n b = some opened) : visit.run n b = (visit.fill n opened).exit := by
  cases visit with
  | importDecl => cases opens
  | config => cases opens
  | flow =>
      obtain ⟨name, known, rfl⟩ := Option.map_eq_some_iff.mp opens
      simp only [run, fill, addFlow, known]
  | system =>
      obtain ⟨name, known, rfl⟩ := Option.map_eq_some_iff.mp opens
      simp only [run, fill, addSystem, known]
  | serviceStub => cases opens; rfl
  | start =>
      obtain ⟨name, known, rfl⟩ := Option.map_eq_some_iff.mp opens
      simp only [run, fill, addStart, known]
  | when => cases opens; rfl
  | rulePart =>
      obtain ⟨kind, text, span, parts⟩ := n
      cases kind with
      | flowWhenIf => cases opens; rw [run, addRulePart]; rfl
      | flowWhenElseIf => cases opens; rw [run, addRulePart]; rfl
      | flowWhenElse => cases opens; rw [run, addRulePart]; rfl
      | _ => cases opens
  | ending => cases opens; rfl

theorem shape_fill (visit : FlowVisit) (n : Node) (b : FlowBuilder) :
    (visit.fill n b).shape = b.shape := by
  cases visit with
  | importDecl => rfl
  | config => rfl
  | flow => rw [fill, shape_foldl _ shape_addFlowPart, shape_applyOptions]
  | system => rw [fill, shape_foldl _ shape_addSystemPart, shape_applyOptions]
  | serviceStub => rw [fill, shape_foldl _ shape_addServiceStubPart, shape_applyOptions]
  | start => rw [fill, shape_foldl _ shape_addStartPart, shape_applyOptions]
  | when => rw [fill, shape_addRuleParts, shape_applyOptions]
  | rulePart => rw [fill, shape_addRuleParts]
  | ending => rw [fill, shape_foldl _ shape_addEndPart, shape_applyOptions]

/-- The frame that a visit opens comes on top of those that were open. -/
theorem frames_of_opened? {visit : FlowVisit} {n : Node} {b opened : FlowBuilder}
    (opens : visit.opened? n b = some opened) :
    ∃ pushed, opened.scope.frames = pushed :: b.scope.frames := by
  cases visit with
  | importDecl => cases opens
  | config => cases opens
  | flow =>
      obtain ⟨name, _, rfl⟩ := Option.map_eq_some_iff.mp opens
      exact ⟨_, rfl⟩
  | system =>
      obtain ⟨name, _, rfl⟩ := Option.map_eq_some_iff.mp opens
      exact ⟨_, rfl⟩
  | serviceStub => cases opens; exact ⟨_, rfl⟩
  | start =>
      obtain ⟨name, _, rfl⟩ := Option.map_eq_some_iff.mp opens
      exact ⟨_, rfl⟩
  | when => cases opens; exact ⟨_, rfl⟩
  | rulePart =>
      obtain ⟨kind, text, span, parts⟩ := n
      cases kind with
      | flowWhenIf => cases opens; exact ⟨_, rfl⟩
      | flowWhenElseIf => cases opens; exact ⟨_, rfl⟩
      | flowWhenElse => cases opens; exact ⟨_, rfl⟩
      | _ => cases opens
  | ending => cases opens; exact ⟨_, rfl⟩

/-- A visit closes the frame that it has opened, filled, on top of those that it found. -/
theorem nests {visit : FlowVisit} {n : Node} {b opened : FlowBuilder}
    (opens : visit.opened? n b = some opened) :
    ∃ own below,
      Scope.Nests FlowFrame.construct b.scope opened.scope (visit.fill n opened).scope own below ∧
      visit.run n b = FlowBuilder.register own { visit.fill n opened with scope := ⟨below⟩ } := by
  obtain ⟨pushed, frames⟩ := frames_of_opened? opens
  obtain ⟨own, below, nests, closed⟩ :=
    Scope.Nests.of_shape frames rfl (visit.shape_fill n opened)
  refine ⟨own, below, nests, ?_⟩
  rw [run_of_opened? opens, FlowBuilder.exit, closed]

/-- A visit that opens no frame leaves those that are open. -/
theorem shape_of_opened?_none {visit : FlowVisit} {n : Node} {b : FlowBuilder}
    (opens : visit.opened? n b = none) : (visit.run n b).shape = b.shape := by
  cases visit with
  | importDecl => rfl
  | config =>
      apply shape_foldl
      intro b part
      unfold addConfigPart
      split
      · split <;> rfl
      · rfl
  | flow =>
      have unnamed := Option.map_eq_none_iff.mp opens
      simp only [run, addFlow, unnamed, shape_skip]
  | system => exact shape_addSystem b n
  | serviceStub => cases opens
  | start => exact shape_addStart b n
  | when => cases opens
  | rulePart => exact shape_addRulePart b n
  | ending => cases opens

theorem shape_run (visit : FlowVisit) (n : Node) (b : FlowBuilder) :
    (visit.run n b).shape = b.shape := by
  cases opens : visit.opened? n b with
  | none => exact shape_of_opened?_none opens
  | some opened =>
      obtain ⟨own, below, nests, closed⟩ := FlowVisit.nests opens
      rw [closed, shape_register]
      exact nests.finds

end FlowVisit

namespace FlowBuilder

theorem shape_addTopLevel (b : FlowBuilder) (n : Node) : (b.addTopLevel n).shape = b.shape := by
  unfold addTopLevel
  split
  · rfl
  · exact FlowVisit.shape_run .importDecl n b
  · exact FlowVisit.shape_run .config n b
  · exact FlowVisit.shape_run .flow n b
  · rfl

/-- After a whole tree no frame is open. -/
theorem frames_ofTree (tree : Node) : (ofTree tree).scope.frames = [] :=
  List.map_eq_nil_iff.mp (shape_foldl {} shape_addTopLevel tree.children)

end FlowBuilder

/-! ## Both languages -/

/-- **Every visit closes its own frame and no other.** Whatever node is visited and whatever is
open, a visit of a builder leaves the constructs open that it found. If it opens a frame, then what
it registers at its end is that frame, as it is on top of the frames that the visit found. So after
a whole tree nothing is open. -/
theorem scope_balanced :
    (∀ (visit : EntityVisit) (n : Node) (b : EntityBuilder),
      (visit.run n b).shape = b.shape ∧
      ∀ opened ∈ visit.opened? n b, ∃ own below,
        Scope.Nests EntityFrame.construct b.scope opened.scope (visit.fill n opened).scope own
          below ∧
        visit.run n b = EntityBuilder.register own { visit.fill n opened with scope := ⟨below⟩ }) ∧
    (∀ (visit : FlowVisit) (n : Node) (b : FlowBuilder),
      (visit.run n b).shape = b.shape ∧
      ∀ opened ∈ visit.opened? n b, ∃ own below,
        Scope.Nests FlowFrame.construct b.scope opened.scope (visit.fill n opened).scope own
          below ∧
        visit.run n b = FlowBuilder.register own { visit.fill n opened with scope := ⟨below⟩ }) ∧
    ∀ tree : Node, (EntityBuilder.ofTree tree).scope.isEmpty = true ∧
      (FlowBuilder.ofTree tree).scope.isEmpty = true := by
  refine ⟨?_, ?_, ?_⟩
  · intro visit n b
    exact ⟨visit.shape_run n b, fun _ opens => EntityVisit.nests opens⟩
  · intro visit n b
    exact ⟨visit.shape_run n b, fun _ opens => FlowVisit.nests opens⟩
  · intro tree
    constructor
    · rw [Scope.isEmpty, EntityBuilder.frames_ofTree]
      rfl
    · rw [Scope.isEmpty, FlowBuilder.frames_ofTree]
      rfl

/-- A field with a nested body that is named as an open entity below a service. -/
theorem scope_balanced_sameName :
    let node (kind : Node.Kind) (text : String) := Node.mk kind text ⟨0, 0, 0, 0, 0, 0⟩
    let field := node .field "" [node .fieldName "f" [], node .fieldType "" [node .id "A" []],
      node .nestedField "" []]
    let b : EntityBuilder :=
      { scope := ⟨[.service (Service.named "S"), .entity .entities (Entity.named "A") false]⟩ }
    ∃ opened, EntityVisit.opened? .field field b = some opened ∧ ∃ own below,
      Scope.Nests EntityFrame.construct b.scope opened.scope
        (EntityVisit.fill .field field opened).scope own below ∧
      EntityVisit.run .field field b =
        EntityBuilder.register own
          { EntityVisit.fill .field field opened with scope := ⟨below⟩ } := by
  intro node field b
  exact ⟨_, rfl, (scope_balanced.1 .field field b).2 _ rfl⟩

end EntityFlow
