import EntityFlow.Document.FlowBuilder
import EntityFlow.Proofs.Document.Sites

/-!
# The sites of flows

A flow, its systems and its starts have addresses, and their places are recorded as they are opened.
The path of a system or a start goes through the flow that is open at that time: whatever is opened
and closed inside a flow keeps the names of the open flows (`FlowBuilder.Locates`). So the locations
follow from the tree alone here, too (`FlowBuilder.locations_ofTree`). Of the names only that of the
flow has a place of its own.
-/

namespace EntityFlow.FlowBuilder

/-! ## Sites -/

/-- A system of a flow. -/
def sitesOfSystem (flow : String) (n : Node) : List Site :=
  match n.child .flowSystemName with
  | none => []
  | some name => [.nameless (.system flow name.text) n]

/-- A start of a flow. -/
def sitesOfStart (flow : String) (n : Node) : List Site :=
  match n.child .flowStartName with
  | none => []
  | some name => [.nameless (.start flow name.text) n]

/-- What a part of a flow declares. -/
def sitesOfPart (flow : String) (n : Node) : List Site :=
  match n.kind with
  | .flowSystems => (n.childrenOf .flowSystem).flatMap (sitesOfSystem flow)
  | .flowStart => sitesOfStart flow n
  | _ => []

/-- A flow with what its parts declare. -/
def sitesOfFlow (n : Node) : List Site :=
  match n.child .flowName with
  | none => []
  | some name => .named (.flow name.text) n name rfl :: n.children.flatMap (sitesOfPart name.text)

/-- Where a tree declares what it declares. -/
def sites (tree : Node) : List Site := (tree.childrenOf .flow).flatMap sitesOfFlow

/-! ## What is recorded of a step -/

/-- That a step records the places of some sites and keeps the names of the open flows. -/
structure Locates (before after : FlowBuilder) (ss : List Site) : Prop where
  locations : after.locations = before.locations.putAll (ss.flatMap Site.entries)
  names : after.scope.frames.map FlowFrame.flowName? = before.scope.frames.map FlowFrame.flowName?

namespace Locates

variable {before middle after : FlowBuilder} {ss ss' : List Site}

theorem refl (b : FlowBuilder) : Locates b b [] := ⟨rfl, rfl⟩

theorem trans (first : Locates before middle ss) (second : Locates middle after ss') :
    Locates before after (ss ++ ss') := by
  refine ⟨?_, second.names.trans first.names⟩
  rw [second.locations, first.locations, List.flatMap_append, OrderedMap.putAll_append]

/-- A step that records nothing, behind one that records something. -/
theorem followed (first : Locates before middle ss) (second : Locates middle after []) :
    Locates before after ss := by
  have both := first.trans second
  rwa [List.append_nil] at both

theorem skip (b : FlowBuilder) (n : Node) (context : Context) : Locates b (b.skip n context) [] :=
  ⟨rfl, rfl⟩

theorem nameless (b : FlowBuilder) (address : Address) (n : Node) :
    Locates b (b.locate address.path n.span) [.nameless address n] :=
  ⟨rfl, rfl⟩

/-- Steps of a walk that record nothing make a walk that records nothing. -/
theorem foldl {step : FlowBuilder → Node → FlowBuilder} (each : ∀ b n, Locates b (step b n) [])
    (ns : List Node) (b : FlowBuilder) : Locates b (ns.foldl step b) [] := by
  induction ns generalizing b with
  | nil => exact refl b
  | cons n rest ih => exact (each b n).trans (ih (step b n))

theorem changeTop {change : FlowFrame → Option FlowFrame}
    (same : ∀ frame changed, change frame = some changed → changed.flowName? = frame.flowName?)
    (b : FlowBuilder) : Locates b (b.changeTop change) [] := by
  refine ⟨rfl, ?_⟩
  rw [FlowBuilder.changeTop, Scope.changeTop]
  cases b.scope.frames with
  | nil => rfl
  | cons frame outer =>
      cases known : change frame with
      | none => simp [known]
      | some changed => simp [known, same frame changed known]

theorem changeNearest {change : FlowFrame → Option FlowFrame}
    (same : ∀ frame changed, change frame = some changed → changed.flowName? = frame.flowName?)
    (b : FlowBuilder) : Locates b (b.changeNearest change) [] := by
  refine ⟨rfl, ?_⟩
  rw [FlowBuilder.changeNearest, Scope.changeNearest, Scope.changeNearest?]
  cases found : Scope.changeFirst? change b.scope.frames with
  | none => rfl
  | some frames => exact Scope.map_changeFirst? same found

theorem applyOptions (b : FlowBuilder) (n : Node) : Locates b (b.applyOptions n) [] := by
  refine changeTop (fun frame changed added => ?_) b
  cases added
  cases frame <;> rfl

/-- A finished record changes no name of the frame that it is handed to. -/
theorem register (b : FlowBuilder) (frame : FlowFrame) : Locates b (b.register frame) [] := by
  have toFlow (change : Flow → Flow) (same : ∀ flow, (change flow).name = flow.name) :
      Locates b (b.changeNearest (FlowFrame.changeFlow? change)) [] := by
    refine changeNearest (fun frame changed found => ?_) b
    cases frame <;> cases found
    exact congrArg some (same _)
  cases frame with
  | flow record => exact ⟨rfl, rfl⟩
  | system record => exact toFlow (fun flow => { flow with systems := _ }) fun _ => rfl
  | start record => exact toFlow (fun flow => { flow with starts := _ }) fun _ => rfl
  | when record => exact toFlow (fun flow => { flow with whens := _ }) fun _ => rfl
  | ending record => exact toFlow (fun flow => { flow with ending := _ }) fun _ => rfl
  | _ =>
      refine changeNearest (fun frame changed found => ?_) b
      cases frame <;> cases found
      rfl

/-- A frame is opened, worked on and closed. -/
theorem exit {frame : FlowFrame} (inside : Locates (before.enter frame) after ss) :
    Locates before after.exit ss := by
  obtain ⟨top, outer, split, _, rest⟩ := List.map_eq_cons_iff.mp inside.names
  have closed : after.scope.exit = (some top, ⟨outer⟩) := by
    rw [Scope.exit, split]
    rfl
  have popped : Locates before { after with scope := ⟨outer⟩ } ss := ⟨inside.locations, rest⟩
  rw [FlowBuilder.exit, closed]
  exact popped.followed (register _ top)

end Locates

section Steps

variable (b : FlowBuilder) (n : Node)

theorem locates_addServiceStubPart : Locates b (b.addServiceStubPart n) [] := by
  unfold addServiceStubPart
  split
  · refine .changeTop (fun frame changed found => ?_) b
    cases frame <;> cases found
    rfl
  · exact .skip b n _
  · exact .refl b

theorem locates_addSystemPart : Locates b (b.addSystemPart n) [] := by
  have change (set : System → System) :
      Locates b (b.changeTop (FlowFrame.changeSystem? set)) [] := by
    refine .changeTop (fun frame changed found => ?_) b
    cases frame <;> cases found
    rfl
  unfold addSystemPart
  split
  · exact change _
  · exact .exit ((Locates.applyOptions _ n).followed
      (.foldl locates_addServiceStubPart _ _))
  · exact change _
  · exact .skip b n _
  · exact .refl b

theorem locates_addStartPart : Locates b (b.addStartPart n) [] := by
  unfold addStartPart
  split
  · refine .changeNearest (fun frame changed found => ?_) b
    cases frame <;> cases found
    rfl
  · exact .skip b n _
  · exact .refl b

theorem locates_addEndPart : Locates b (b.addEndPart n) [] := by
  have change (moreEvents : End → End) :
      Locates b (b.changeTop (FlowFrame.changeEnding? moreEvents)) [] := by
    refine .changeTop (fun frame changed found => ?_) b
    cases frame <;> cases found
    rfl
  unfold addEndPart
  dsimp only
  split
  · exact change _
  · exact change _
  · exact change _
  · exact .skip b n _
  · exact .refl b

theorem locates_addEnd : Locates b (b.addEnd n) [] :=
  .exit ((Locates.applyOptions _ n).followed (.foldl locates_addEndPart _ _))

theorem locates_changeActions (change : Actions → Actions) :
    Locates b (b.changeActions change) [] := by
  refine .changeNearest (fun frame changed found => ?_) b
  cases frame <;> cases found <;> rfl

end Steps

mutual

theorem locates_addRulePart : (n : Node) → (b : FlowBuilder) → Locates b (addRulePart n b) []
  | ⟨k, text, span, parts⟩, b => by
      cases k with
      | flowWhenIf =>
          rw [addRulePart]
          exact .exit (locates_addRuleParts parts _)
      | flowWhenElseIf =>
          rw [addRulePart]
          exact .exit (locates_addRuleParts parts _)
      | flowWhenElse =>
          rw [addRulePart]
          exact .exit (locates_addRuleParts parts _)
      | flowWhenCommand =>
          rw [addRulePart]
          exact locates_changeActions b _
      | flowWhenEvent =>
          rw [addRulePart]
          exact locates_changeActions b _
      | flowWhenPolicy =>
          rw [addRulePart]
          exact locates_changeActions b _
      | error =>
          rw [addRulePart]
          exact .skip b _ _
      | _ =>
          rw [addRulePart]
          · exact .refl b
          all_goals simp

theorem locates_addRuleParts : (ns : List Node) → (b : FlowBuilder) →
    Locates b (addRuleParts ns b) []
  | [], b => by
      rw [addRuleParts]
      exact .refl b
  | n :: rest, b => by
      rw [addRuleParts]
      exact (locates_addRulePart n b).trans (locates_addRuleParts rest _)

end

theorem locates_addWhen (b : FlowBuilder) (n : Node) : Locates b (b.addWhen n) [] :=
  .exit ((Locates.applyOptions _ n).followed (locates_addRuleParts n.children _))

/-! ## Parts of flows -/

/-- That the flow of a name is open, and nothing in it. -/
def InFlow (b : FlowBuilder) (flow : String) : Prop :=
  ∃ outer, b.scope.frames.map FlowFrame.flowName? = some flow :: outer

namespace InFlow

variable {b after : FlowBuilder} {flow : String} {ss : List Site}

theorem flowPath (inFlow : b.InFlow flow) : b.flowPath = "flows." ++ flow := by
  obtain ⟨_, names⟩ := inFlow
  obtain ⟨top, rest, frames, isFlow, _⟩ := List.map_eq_cons_iff.mp names
  rw [FlowBuilder.flowPath, Scope.nearest?, frames, List.findSome?_cons, isFlow]

theorem locates (inFlow : b.InFlow flow) (step : Locates b after ss) : after.InFlow flow := by
  obtain ⟨outer, names⟩ := inFlow
  exact ⟨outer, step.names.trans names⟩

/-- A walk through parts of the flow. -/
theorem foldl {step : FlowBuilder → Node → FlowBuilder} {declares : Node → List Site}
    (each : ∀ b : FlowBuilder, b.InFlow flow → ∀ n, Locates b (step b n) (declares n))
    (ns : List Node) (inFlow : b.InFlow flow) :
    Locates b (ns.foldl step b) (ns.flatMap declares) := by
  induction ns generalizing b with
  | nil => exact .refl b
  | cons n rest ih =>
      have first := each b inFlow n
      exact first.trans (ih (inFlow.locates first))

theorem addSystem (inFlow : b.InFlow flow) (n : Node) :
    Locates b (b.addSystem n) (sitesOfSystem flow n) := by
  unfold FlowBuilder.addSystem sitesOfSystem
  cases n.child .flowSystemName with
  | none => exact .refl b
  | some name =>
      rw [inFlow.flowPath]
      have recorded := Locates.nameless b (.system flow name.text) n
      exact recorded.followed (.exit ((Locates.applyOptions _ n).followed
        (.foldl locates_addSystemPart _ _)))

theorem addStart (inFlow : b.InFlow flow) (n : Node) :
    Locates b (b.addStart n) (sitesOfStart flow n) := by
  unfold FlowBuilder.addStart sitesOfStart
  cases n.child .flowStartName with
  | none => exact .refl b
  | some name =>
      rw [inFlow.flowPath]
      have recorded := Locates.nameless b (.start flow name.text) n
      exact recorded.followed (.exit ((Locates.applyOptions _ n).followed
        (.foldl locates_addStartPart _ _)))

theorem addSystems (inFlow : b.InFlow flow) (n : Node) :
    Locates b (n.children.foldl addSystemsPart b)
      ((n.childrenOf .flowSystem).flatMap (sitesOfSystem flow)) := by
  rw [Node.childrenOf, flatMap_filter]
  refine inFlow.foldl (fun b inFlow part => ?_) n.children
  unfold addSystemsPart
  split <;> rename_i known
  · rw [known]
    exact inFlow.addSystem part
  · rw [known]
    exact .skip b part _
  · rw [if_neg (by simpa using ‹_›)]
    exact .refl b

theorem addFlowPart (inFlow : b.InFlow flow) (n : Node) :
    Locates b (b.addFlowPart n) (sitesOfPart flow n) := by
  unfold FlowBuilder.addFlowPart sitesOfPart
  cases n.kind with
  | flowSystems => exact inFlow.addSystems n
  | flowStart => exact inFlow.addStart n
  | flowWhen => exact locates_addWhen b n
  | flowEnd => exact locates_addEnd b n
  | error => exact .skip b n _
  | _ => exact .refl b

end InFlow

/-! ## Flows and documents -/

theorem locates_addFlow (b : FlowBuilder) (n : Node) : Locates b (b.addFlow n) (sitesOfFlow n) := by
  unfold addFlow sitesOfFlow
  cases n.child .flowName with
  | none => exact .skip b n _
  | some name =>
      dsimp only
      generalize named : { Flow.named name.text with documentation := n.documentation? } = record
      generalize located : (b.locate ("flows." ++ name.text ++ ".name") name.span).locate
        ("flows." ++ name.text) n.span = start
      have recorded : Locates b start [.named (.flow name.text) n name rfl] := by
        rw [← located]
        exact ⟨rfl, rfl⟩
      -- inside the flow its name is the nearest one
      have inFlow : (start.enter (.flow record)).InFlow name.text := by
        rw [← named]
        exact ⟨_, rfl⟩
      have options := Locates.applyOptions (start.enter (.flow record)) n
      have parts := (inFlow.locates options).foldl
        (fun b inFlow part => inFlow.addFlowPart part) n.children
      exact recorded.trans (options.trans parts).exit

theorem locates_addConfigPart (b : FlowBuilder) (n : Node) : Locates b (b.addConfigPart n) [] := by
  unfold addConfigPart
  split
  · split <;> exact ⟨rfl, rfl⟩
  · exact .skip b n _

theorem locates_addTopLevel (b : FlowBuilder) (n : Node) :
    Locates b (b.addTopLevel n) (if (n.kind == .flow) = true then sitesOfFlow n else []) := by
  unfold addTopLevel
  split <;> rename_i known
  · rw [known]
    exact ⟨rfl, rfl⟩
  · rw [known]
    exact ⟨rfl, rfl⟩
  · rw [known]
    exact .foldl locates_addConfigPart n.children b
  · rw [known]
    exact locates_addFlow b n
  · rw [if_neg (by simpa using ‹_›)]
    exact .skip b n _

theorem locates_foldl_addTopLevel (ns : List Node) (b : FlowBuilder) :
    Locates b (ns.foldl addTopLevel b) ((ns.filter (·.kind == .flow)).flatMap sitesOfFlow) := by
  rw [flatMap_filter]
  induction ns generalizing b with
  | nil => exact .refl b
  | cons n rest ih => exact (locates_addTopLevel b n).trans (ih _)

/-- **The locations of a tree are the places of its flows**, their systems and their starts, put one
after the other. -/
theorem locations_ofTree (tree : Node) :
    (ofTree tree).locations = Site.locations (sites tree) :=
  (locates_foldl_addTopLevel tree.children {}).locations

end EntityFlow.FlowBuilder
