import Mathlib.Logic.Relation
import EntityFlow.Document.FlowBuilder

/-!
# The steps in which flow documents are built

Whatever a tree looks like, its document is built in steps of a few sorts (`FlowBuilder.Step`): a
frame is opened, without parts as yet; it takes the options of a node; it takes a detail, which is
no record of its own; and it is closed, which hands its record over. What stands in front of the
flows, and what is said about the building, are steps, too.

The walk over a tree is a run of such steps (`FlowBuilder.runs_ofTree`). So what holds of the empty
builder and is kept by each sort of step holds of every document (`FlowBuilder.ofTree_induction`).
-/

namespace EntityFlow

/-! ## Frames that are opened and changed -/

namespace Scope

variable {F : Type} {p : F → Prop}

/-- What a change keeps of a frame, a change of the nearest frame keeps of all. -/
theorem forall_changeFirst? {change : F → Option F}
    (keeps : ∀ frame changed, change frame = some changed → p frame → p changed)
    {frames changed : List F} (found : changeFirst? change frames = some changed)
    (each : ∀ frame ∈ frames, p frame) : ∀ frame ∈ changed, p frame := by
  fun_induction changeFirst? change frames generalizing changed with
  | case1 => cases found
  | case2 frame rest next known =>
      cases found
      obtain ⟨here, later⟩ := List.forall_mem_cons.mp each
      exact List.forall_mem_cons.mpr ⟨keeps frame next known here, later⟩
  | case3 frame rest unknown ih =>
      obtain ⟨next, inRest, rfl⟩ := Option.map_eq_some_iff.mp found
      obtain ⟨here, later⟩ := List.forall_mem_cons.mp each
      exact List.forall_mem_cons.mpr ⟨here, ih inRest later⟩

theorem forall_changeNearest {s : Scope F} {change : F → Option F}
    (keeps : ∀ frame changed, change frame = some changed → p frame → p changed)
    (each : ∀ frame ∈ s.frames, p frame) : ∀ frame ∈ (s.changeNearest change).frames, p frame := by
  rw [changeNearest, changeNearest?]
  cases found : changeFirst? change s.frames with
  | none => exact each
  | some frames => exact forall_changeFirst? keeps found each

theorem forall_changeTop {s : Scope F} {change : F → F}
    (keeps : ∀ frame, p frame → p (change frame))
    (each : ∀ frame ∈ s.frames, p frame) : ∀ frame ∈ (s.changeTop change).frames, p frame := by
  obtain ⟨frames⟩ := s
  cases frames with
  | nil => exact each
  | cons top outer =>
      obtain ⟨onTop, below⟩ := List.forall_mem_cons.mp each
      exact List.forall_mem_cons.mpr ⟨keeps top onTop, below⟩

end Scope

/-- A frame as it is opened: it has a name or a condition, and no options and no parts. -/
inductive FlowFrame.Opened : FlowFrame → Prop
  | flow (name : String) (documentation : Option String) :
      Opened (.flow { Flow.named name with documentation })
  | system (name : String) (documentation : Option String) :
      Opened (.system { name, documentation })
  | serviceStub (name : String) : Opened (.serviceStub { name })
  | start (name : String) (documentation : Option String) :
      Opened (.start { Start.named name with documentation })
  | when (triggers : List String) : Opened (.when { triggers })
  | conditional (condition : String) : Opened (.conditional { condition })
  | elseIf (condition : String) : Opened (.elseIf { condition })
  | otherwise : Opened (.otherwise {})
  | ending : Opened (.ending {})

/-- A change of a frame by a node that is no record of its own and has no options for it. -/
inductive FlowFrame.Detail : (FlowFrame → Option FlowFrame) → Prop
  | commands (more : List String) :
      Detail (changeServiceStub? fun stub => { stub with commands := stub.commands ++ more })
  | entityModel (found : Option String) :
      Detail (changeSystem? fun system => { system with entityModel := found })
  | events (more : List String) :
      Detail (changeSystem? fun system => { system with events := system.events ++ more })
  | field (field : Field) : Detail (addField? field)
  | actions (change : Actions → Actions) : Detail (changeActions? change)
  | ending (change : End → End) : Detail (changeEnding? change)

namespace FlowBuilder

/-! ## Steps and runs -/

/-- A step of building. -/
inductive Step (b : FlowBuilder) : FlowBuilder → Prop
  | skip (n : Node) (context : Context) : Step b (b.skip n context)
  | locate (path : String) (span : Span) : Step b (b.locate path span)
  /-- The documentation, an import or a part of the configuration. -/
  | preface (d : FlowDocument) (same : d.flows = b.document.flows) : Step b { b with document := d }
  | enter (frame : FlowFrame) (opened : frame.Opened) : Step b (b.enter frame)
  | applyOptions (n : Node) : Step b (b.applyOptions n)
  | changeTop (change : FlowFrame → Option FlowFrame) (detail : FlowFrame.Detail change) :
      Step b (b.changeTop change)
  | changeNearest (change : FlowFrame → Option FlowFrame) (detail : FlowFrame.Detail change) :
      Step b (b.changeNearest change)
  | exit : Step b b.exit

/-- `b.Runs after`: the builder `after` is reached from `b` in steps. -/
def Runs (b after : FlowBuilder) : Prop := Relation.ReflTransGen Step b after

namespace Runs

variable {b middle after : FlowBuilder}

theorem refl (b : FlowBuilder) : Runs b b := Relation.ReflTransGen.refl

theorem step (step : Step b after) : Runs b after := .single step

theorem trans (first : Runs b middle) (second : Runs middle after) : Runs b after :=
  Relation.ReflTransGen.trans first second

/-- A step more at the end. -/
theorem tail (run : Runs b middle) (step : Step middle after) : Runs b after :=
  Relation.ReflTransGen.tail run step

theorem foldl {step : FlowBuilder → Node → FlowBuilder} (each : ∀ b n, Runs b (step b n))
    (ns : List Node) (b : FlowBuilder) : Runs b (ns.foldl step b) := by
  induction ns generalizing b with
  | nil => exact refl b
  | cons n rest ih => exact (each b n).trans (ih (step b n))

/-- A frame is opened, takes the options of a node, is filled and closed. -/
theorem frame {frame : FlowFrame} (opened : frame.Opened) {n : Node}
    (filled : Runs ((b.enter frame).applyOptions n) after) : Runs b after.exit :=
  ((step (.enter frame opened)).tail (.applyOptions n)).trans (filled.tail .exit)

/-- What every step keeps, a run keeps. -/
theorem keeps {P : FlowBuilder → Prop} (run : Runs b after)
    (each : ∀ b after, Step b after → P b → P after) (holds : P b) : P after := by
  induction run with
  | refl => exact holds
  | tail _ step ih => exact each _ _ step ih

end Runs

/-! ## Systems and starts -/

variable (b : FlowBuilder) (n : Node)

theorem runs_addServiceStubPart : Runs b (b.addServiceStubPart n) := by
  unfold addServiceStubPart
  split
  · exact .step (.changeTop _ (.commands _))
  · exact .step (.skip n _)
  · exact .refl b

theorem runs_addServiceStub : Runs b (b.addServiceStub n) :=
  .frame (.serviceStub _) (.foldl runs_addServiceStubPart _ _)

theorem runs_addSystemPart : Runs b (b.addSystemPart n) := by
  unfold addSystemPart
  split
  · exact .step (.changeTop _ (.entityModel _))
  · exact runs_addServiceStub b n
  · exact .step (.changeTop _ (.events _))
  · exact .step (.skip n _)
  · exact .refl b

theorem runs_addSystem : Runs b (b.addSystem n) := by
  unfold addSystem
  split
  · exact .refl b
  · exact (Runs.step (.locate _ _)).trans (.frame (.system _ _) (.foldl runs_addSystemPart _ _))

theorem runs_addSystemsPart : Runs b (b.addSystemsPart n) := by
  unfold addSystemsPart
  split
  · exact runs_addSystem b n
  · exact .step (.skip n _)
  · exact .refl b

theorem runs_addStartPart : Runs b (b.addStartPart n) := by
  unfold addStartPart
  split
  · exact .step (.changeNearest _ (.field _))
  · exact .step (.skip n _)
  · exact .refl b

theorem runs_addStart : Runs b (b.addStart n) := by
  unfold addStart
  split
  · exact .refl b
  · exact (Runs.step (.locate _ _)).trans (.frame (.start _ _) (.foldl runs_addStartPart _ _))

/-! ## Rules and ends -/

mutual

theorem runs_addRulePart : (n : Node) → (b : FlowBuilder) → Runs b (addRulePart n b)
  | ⟨k, text, span, parts⟩, b => by
      have branch {frame : FlowFrame} (opened : frame.Opened) :
          Runs b (addRuleParts parts (b.enter frame)).exit :=
        ((Runs.step (.enter frame opened)).trans (runs_addRuleParts parts _)).tail .exit
      have action (change : Actions → Actions) : Runs b (b.changeActions change) :=
        .step (.changeNearest _ (.actions change))
      cases k with
      | flowWhenIf =>
          rw [addRulePart]
          exact branch (.conditional _)
      | flowWhenElseIf =>
          rw [addRulePart]
          exact branch (.elseIf _)
      | flowWhenElse =>
          rw [addRulePart]
          exact branch .otherwise
      | flowWhenCommand =>
          rw [addRulePart]
          exact action _
      | flowWhenEvent =>
          rw [addRulePart]
          exact action _
      | flowWhenPolicy =>
          rw [addRulePart]
          exact action _
      | error =>
          rw [addRulePart]
          exact .step (.skip _ _)
      | _ =>
          rw [addRulePart]
          · exact .refl b
          all_goals simp

theorem runs_addRuleParts : (ns : List Node) → (b : FlowBuilder) → Runs b (addRuleParts ns b)
  | [], b => by
      rw [addRuleParts]
      exact .refl b
  | n :: rest, b => by
      rw [addRuleParts]
      exact (runs_addRulePart n b).trans (runs_addRuleParts rest _)

end

theorem runs_addWhen : Runs b (b.addWhen n) :=
  .frame (.when _) (runs_addRuleParts n.children _)

theorem runs_addEndPart : Runs b (b.addEndPart n) := by
  unfold addEndPart
  dsimp only
  split
  · exact .step (.changeTop _ (.ending _))
  · exact .step (.changeTop _ (.ending _))
  · exact .step (.changeTop _ (.ending _))
  · exact .step (.skip n _)
  · exact .refl b

theorem runs_addEnd : Runs b (b.addEnd n) := .frame .ending (.foldl runs_addEndPart _ _)

/-! ## Flows and documents -/

theorem runs_addFlowPart : Runs b (b.addFlowPart n) := by
  unfold addFlowPart
  split
  · exact .foldl runs_addSystemsPart n.children b
  · exact runs_addStart b n
  · exact runs_addWhen b n
  · exact runs_addEnd b n
  · exact .step (.skip n _)
  · exact .refl b

theorem runs_addFlow : Runs b (b.addFlow n) := by
  unfold addFlow
  split
  · exact .step (.skip n _)
  · exact ((Runs.step (.locate _ _)).tail (.locate _ _)).trans
      (.frame (.flow _ _) (.foldl runs_addFlowPart _ _))

theorem runs_addConfigPart : Runs b (b.addConfigPart n) := by
  unfold addConfigPart
  split
  · split
    · exact .refl b
    · exact .step (.preface _ rfl)
  · exact .step (.skip n _)

theorem runs_addTopLevel : Runs b (b.addTopLevel n) := by
  unfold addTopLevel
  split
  · exact .step (.preface _ rfl)
  · exact .step (.preface _ rfl)
  · exact .foldl runs_addConfigPart n.children b
  · exact runs_addFlow b n
  · exact .step (.skip n _)

/-- **Every document is built in steps.** -/
theorem runs_ofTree (tree : Node) : Runs {} (ofTree tree) :=
  .foldl runs_addTopLevel tree.children {}

/-- What holds at the start and is kept by every step holds of every document. -/
theorem ofTree_induction {P : FlowBuilder → Prop} (start : P {})
    (each : ∀ b after, Step b after → P b → P after) (tree : Node) : P (ofTree tree) :=
  (runs_ofTree tree).keeps each start

end FlowBuilder

end EntityFlow
