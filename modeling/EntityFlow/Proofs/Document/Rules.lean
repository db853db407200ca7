import Mathlib.Data.List.Basic
import EntityFlow.Proofs.Data.OrderedMap
import EntityFlow.Proofs.Document.Branches
import EntityFlow.Proofs.Token.Order

/-!
# The rules of flows

Which rules a document holds is said by its tree alone (`Parse.rules`): the rules of a flow are the
records of the rules among its parts, in order. Rules are only built where a flow is open, and what
else there is in a flow or beside it leaves them alone (`FlowBuilder.Keeps`).
-/

namespace EntityFlow

/-! ## What leaves the rules alone -/

namespace FlowFrame

/-- The name and the rules of the flow that a frame is. -/
def rules? : FlowFrame → Option (String × List When)
  | .flow r => some (r.name, r.whens)
  | _ => none

/-- What a frame shows of flows, rules and branches. -/
def trace (frame : FlowFrame) : Option (String × List When) × Option Node.Kind :=
  (frame.rules?, frame.branchKind?)

end FlowFrame

namespace FlowBuilder

/-- A step that changes no rule and leaves open what was open. -/
structure Keeps (before after : FlowBuilder) : Prop where
  flows : after.document.flows = before.document.flows
  frames : after.scope.frames.map FlowFrame.trace = before.scope.frames.map FlowFrame.trace

namespace Keeps

variable {before middle after : FlowBuilder}

theorem refl (b : FlowBuilder) : Keeps b b := ⟨rfl, rfl⟩

theorem trans (first : Keeps before middle) (second : Keeps middle after) : Keeps before after :=
  ⟨second.flows.trans first.flows, second.frames.trans first.frames⟩

theorem skip (b : FlowBuilder) (n : Node) (context : Context) : Keeps b (b.skip n context) :=
  ⟨rfl, rfl⟩

theorem locate (b : FlowBuilder) (path : String) (span : Span) : Keeps b (b.locate path span) :=
  ⟨rfl, rfl⟩

/-- Steps of a walk that keep the rules make a walk that keeps them. -/
theorem foldl {step : FlowBuilder → Node → FlowBuilder}
    (each : ∀ b n, Keeps b (step b n)) (ns : List Node) (b : FlowBuilder) :
    Keeps b (ns.foldl step b) := by
  induction ns generalizing b with
  | nil => exact refl b
  | cons n rest ih => exact (each b n).trans (ih (step b n))

theorem changeTop {change : FlowFrame → Option FlowFrame}
    (same : ∀ frame changed, change frame = some changed → changed.trace = frame.trace)
    (b : FlowBuilder) : Keeps b (b.changeTop change) := by
  refine ⟨rfl, ?_⟩
  rw [FlowBuilder.changeTop, Scope.changeTop]
  cases b.scope.frames with
  | nil => rfl
  | cons frame outer =>
      cases known : change frame with
      | none => simp [known]
      | some changed => simp [known, same frame changed known]

theorem changeNearest {change : FlowFrame → Option FlowFrame}
    (same : ∀ frame changed, change frame = some changed → changed.trace = frame.trace)
    (b : FlowBuilder) : Keeps b (b.changeNearest change) := by
  refine ⟨rfl, ?_⟩
  rw [FlowBuilder.changeNearest, Scope.changeNearest, Scope.changeNearest?]
  cases found : Scope.changeFirst? change b.scope.frames with
  | none => rfl
  | some frames => exact Scope.map_changeFirst? same found

theorem applyOptions (b : FlowBuilder) (n : Node) : Keeps b (b.applyOptions n) := by
  refine changeTop (fun frame changed added => ?_) b
  cases added
  cases frame <;> rfl

/-- A record of another sort is handed to the frame that owns it. -/
theorem register {frame : FlowFrame} (other : frame.trace = (none, none)) (b : FlowBuilder) :
    Keeps b (b.register frame) := by
  cases frame with
  | system record =>
      refine changeNearest (fun frame changed found => ?_) b
      cases frame <;> cases found
      rfl
  | serviceStub record =>
      refine changeNearest (fun frame changed found => ?_) b
      cases frame <;> cases found
      rfl
  | start record =>
      refine changeNearest (fun frame changed found => ?_) b
      cases frame <;> cases found
      rfl
  | ending record =>
      refine changeNearest (fun frame changed found => ?_) b
      cases frame <;> cases found
      rfl
  | _ => cases other

/-- A frame of another sort is opened and closed. -/
theorem exit {frame : FlowFrame} (inside : Keeps (before.enter frame) after)
    (other : frame.trace = (none, none)) : Keeps before after.exit := by
  have frames : after.scope.frames.map FlowFrame.trace =
      (none, none) :: before.scope.frames.map FlowFrame.trace := by
    rw [inside.frames, ← other]
    rfl
  obtain ⟨top, outer, split, isOther, rest⟩ := List.map_eq_cons_iff.mp frames
  have closed : after.scope.exit = (some top, ⟨outer⟩) := by
    rw [Scope.exit, split]
    rfl
  have popped : Keeps before { after with scope := ⟨outer⟩ } := ⟨inside.flows, rest⟩
  rw [FlowBuilder.exit, closed]
  exact popped.trans (register isOther _)

end Keeps

section Steps

variable (b : FlowBuilder) (n : Node)

theorem keeps_addServiceStubPart : Keeps b (b.addServiceStubPart n) := by
  unfold addServiceStubPart
  split
  · refine .changeTop (fun frame changed found => ?_) b
    cases frame <;> cases found
    rfl
  · exact .skip b n _
  · exact .refl b

theorem keeps_addServiceStub : Keeps b (b.addServiceStub n) :=
  .exit ((Keeps.applyOptions _ n).trans (.foldl keeps_addServiceStubPart _ _)) rfl

theorem keeps_addSystemPart : Keeps b (b.addSystemPart n) := by
  unfold addSystemPart
  split
  · refine .changeTop (fun frame changed found => ?_) b
    cases frame <;> cases found
    rfl
  · exact keeps_addServiceStub b n
  · refine .changeTop (fun frame changed found => ?_) b
    cases frame <;> cases found
    rfl
  · exact .skip b n _
  · exact .refl b

theorem keeps_addSystem : Keeps b (b.addSystem n) := by
  unfold addSystem
  split
  · exact .refl b
  · exact (Keeps.locate b _ n.span).trans
      (.exit ((Keeps.applyOptions _ n).trans (.foldl keeps_addSystemPart _ _)) rfl)

theorem keeps_addSystemsPart : Keeps b (b.addSystemsPart n) := by
  unfold addSystemsPart
  split
  · exact keeps_addSystem b n
  · exact .skip b n _
  · exact .refl b

theorem keeps_addStartPart : Keeps b (b.addStartPart n) := by
  unfold addStartPart
  split
  · refine .changeNearest (fun frame changed found => ?_) b
    cases frame <;> cases found
    rfl
  · exact .skip b n _
  · exact .refl b

theorem keeps_addStart : Keeps b (b.addStart n) := by
  unfold addStart
  split
  · exact .refl b
  · exact (Keeps.locate b _ n.span).trans
      (.exit ((Keeps.applyOptions _ n).trans (.foldl keeps_addStartPart _ _)) rfl)

theorem keeps_addEndPart : Keeps b (b.addEndPart n) := by
  have change (moreEvents : End → End) :
      Keeps b (b.changeTop (FlowFrame.changeEnding? moreEvents)) := by
    refine .changeTop (fun frame changed found => ?_) b
    cases frame <;> cases found
    rfl
  unfold addEndPart
  dsimp only
  split
  · exact change _
  · exact change _
  · exact change _
  · exact .skip b n _
  · exact .refl b

theorem keeps_addEnd : Keeps b (b.addEnd n) :=
  .exit ((Keeps.applyOptions _ n).trans (.foldl keeps_addEndPart _ _)) rfl

/-- A part of a flow that is no rule keeps the rules. -/
theorem keeps_addFlowPart (other : n.kind ≠ .flowWhen) : Keeps b (b.addFlowPart n) := by
  unfold addFlowPart
  split
  · exact .foldl keeps_addSystemsPart _ b
  · exact keeps_addStart b n
  · exact absurd ‹_› other
  · exact keeps_addEnd b n
  · exact .skip b n _
  · exact .refl b

theorem keeps_addConfigPart : Keeps b (b.addConfigPart n) := by
  unfold addConfigPart
  split
  · split <;> exact ⟨rfl, rfl⟩
  · exact .skip b n _

/-- A top-level node that is no flow keeps the rules. -/
theorem keeps_addTopLevel (other : n.kind ≠ .flow) : Keeps b (b.addTopLevel n) := by
  unfold addTopLevel
  split
  · exact ⟨rfl, rfl⟩
  · exact ⟨rfl, rfl⟩
  · exact .foldl keeps_addConfigPart _ b
  · exact absurd ‹_› other
  · exact .skip b n _

end Steps

/-! ## Flows -/

/-- The rules that a flow declares. -/
def rulesOf (parts : List Node) : List When :=
  (parts.filter (·.kind == .flowWhen)).map When.ofNode

/-- The parts of a flow add the rules among them to the flow. -/
theorem trace_foldl_addFlowPart (parts : List Node) {b : FlowBuilder} {name : String}
    {whens : List When} {outer : List (Option (String × List When) × Option Node.Kind)}
    (all : ∀ part ∈ parts, part.AllInPlace)
    (trace : b.scope.frames.map FlowFrame.trace = (some (name, whens), none) :: outer) :
    (parts.foldl addFlowPart b).document.flows = b.document.flows ∧
      (parts.foldl addFlowPart b).scope.frames.map FlowFrame.trace =
        (some (name, whens ++ rulesOf parts), none) :: outer := by
  induction parts generalizing b whens with
  | nil => simpa [rulesOf] using trace
  | cons part rest ih =>
      have allRest : ∀ m ∈ rest, m.AllInPlace :=
        fun m member => all m (List.mem_cons_of_mem _ member)
      by_cases isWhen : part.kind = .flowWhen
      · obtain ⟨top, frames, split, isFlow, below⟩ := List.map_eq_cons_iff.mp trace
        obtain ⟨flow, rfl⟩ : ∃ flow, top = .flow flow := by
          cases top with
          | flow flow => exact ⟨flow, rfl⟩
          | _ => cases isFlow
        obtain ⟨rfl, rfl⟩ : flow.name = name ∧ flow.whens = whens := by
          simpa [FlowFrame.trace, FlowFrame.rules?, FlowFrame.branchKind?] using isFlow
        have added := Shows.addWhen isWhen (all part List.mem_cons_self) ⟨rfl, split⟩
        have step : b.addFlowPart part = b.addWhen part := by
          unfold addFlowPart
          rw [isWhen]
        rw [List.foldl_cons, step]
        have next : (b.addWhen part).scope.frames.map FlowFrame.trace =
            (some (flow.name, flow.whens ++ [When.ofNode part]), none) :: outer := by
          rw [added.frames, List.map_cons, below]
          rfl
        obtain ⟨flows, after⟩ := ih allRest next
        refine ⟨by rw [flows, added.document], ?_⟩
        rw [after, rulesOf, rulesOf, List.filter_cons_of_pos (by simp [isWhen]), List.map_cons,
          List.append_assoc]
        rfl
      · have kept := keeps_addFlowPart b part isWhen
        rw [List.foldl_cons]
        obtain ⟨flows, after⟩ := ih (b := b.addFlowPart part) allRest (kept.frames.trans trace)
        refine ⟨flows.trans kept.flows, ?_⟩
        rw [after, rulesOf, rulesOf, List.filter_cons_of_neg (by simp [isWhen])]

/-- The rules of a flow, under its name; a flow without a name has no place for them. -/
def rulesOfFlow (n : Node) : List (String × List When) :=
  (n.child .flowName).toList.map fun name => (name.text, rulesOf n.children)

end FlowBuilder

/-- The rules of the flows of a document. -/
def FlowDocument.rules (d : FlowDocument) : OrderedMap (List When) := d.flows.mapValues (·.whens)

namespace FlowBuilder

/-- A flow puts its rules, and leaves nothing open. -/
theorem rules_addFlow {b : FlowBuilder} (closed : b.scope.frames = []) {n : Node}
    (all : n.AllInPlace) :
    (b.addFlow n).scope.frames = [] ∧
      (b.addFlow n).document.rules = b.document.rules.putAll (rulesOfFlow n) := by
  unfold addFlow rulesOfFlow
  cases n.child .flowName with
  | none => exact ⟨closed, rfl⟩
  | some name =>
      dsimp only
      generalize named : { Flow.named name.text with documentation := n.documentation? } = record
      generalize located :
        (b.locate ("flows." ++ name.text ++ ".name") name.span).locate ("flows." ++ name.text)
          n.span = start
      have trace : (start.enter (.flow record)).scope.frames.map FlowFrame.trace =
          [(some (name.text, []), none)] := by
        rw [← located, ← named]
        show _ :: b.scope.frames.map FlowFrame.trace = _
        rw [closed]
        rfl
      have kept := Keeps.applyOptions (start.enter (.flow record)) n
      obtain ⟨flows, after⟩ := trace_foldl_addFlowPart n.children
        (fun part member => all.part member) (kept.frames.trans trace)
      obtain ⟨top, frames, split, isFlow, below⟩ := List.map_eq_cons_iff.mp after
      obtain ⟨flow, rfl⟩ : ∃ flow, top = .flow flow := by
        cases top with
        | flow flow => exact ⟨flow, rfl⟩
        | _ => cases isFlow
      obtain ⟨sameName, sameRules⟩ : flow.name = name.text ∧ flow.whens = rulesOf n.children := by
        simpa [FlowFrame.trace, FlowFrame.rules?, FlowFrame.branchKind?] using isFlow
      have exited : (n.children.foldl addFlowPart
          ((start.enter (.flow record)).applyOptions n)).scope.exit =
            (some (.flow flow), ⟨[]⟩) := by
        rw [Scope.exit, split, List.map_eq_nil_iff.mp below]
        rfl
      rw [exit, exited]
      refine ⟨rfl, ?_⟩
      show (OrderedMap.put _ flow.name flow).mapValues (·.whens) = _
      rw [OrderedMap.mapValues_put, flows, kept.flows, sameName, sameRules, ← located]
      rfl

theorem rules_addTopLevel {b : FlowBuilder} (closed : b.scope.frames = []) {n : Node}
    (all : n.AllInPlace) :
    (b.addTopLevel n).scope.frames = [] ∧
      (b.addTopLevel n).document.rules =
        b.document.rules.putAll (if n.kind = .flow then rulesOfFlow n else []) := by
  by_cases isFlow : n.kind = .flow
  · have step : b.addTopLevel n = b.addFlow n := by
      unfold addTopLevel
      rw [isFlow]
    rw [step, if_pos isFlow]
    exact rules_addFlow closed all
  · have kept := keeps_addTopLevel b n isFlow
    have frames := kept.frames
    rw [closed] at frames
    refine ⟨List.map_eq_nil_iff.mp frames, ?_⟩
    rw [if_neg isFlow, FlowDocument.rules, kept.flows]
    rfl

theorem rules_foldl_addTopLevel (ns : List Node) {b : FlowBuilder} (closed : b.scope.frames = [])
    (all : ∀ n ∈ ns, n.AllInPlace) :
    (ns.foldl addTopLevel b).document.rules =
      b.document.rules.putAll ((ns.filter (·.kind == .flow)).flatMap rulesOfFlow) := by
  induction ns generalizing b with
  | nil => rfl
  | cons n rest ih =>
      obtain ⟨closedNext, added⟩ := rules_addTopLevel closed (all n List.mem_cons_self)
      have later := ih closedNext fun m member => all m (List.mem_cons_of_mem _ member)
      rw [List.foldl_cons, later, added]
      by_cases isFlow : n.kind = .flow
      · simp [isFlow]
      · simp [isFlow]

/-- The rules of a document are those that its flows declare. -/
theorem rules_ofTree {tree : Node} (all : tree.AllInPlace) :
    (ofTree tree).document.rules =
      OrderedMap.ofEntries ((tree.childrenOf .flow).flatMap rulesOfFlow) :=
  rules_foldl_addTopLevel tree.children rfl fun _ member => all.part member

end FlowBuilder

/-! ## Sources -/

/-- The nodes of a source of the flow language stand where they may. -/
theorem Parse.allInPlace (limit : Nat) {tokens : List Token} (ended : Token.Ended tokens) :
    (Parse.ofTokens .flow limit tokens).tree.AllInPlace := by
  obtain ⟨_, _, shaped⟩ := Parse.ofTokens_shaped .flow limit ended
  exact fun m member => (shaped m member).placed

namespace Node.AllInPlace

variable {tree n : Node}

/-- Below the root, a node is a part of one that may hold it. -/
theorem exists_parent (all : tree.AllInPlace) (member : n ∈ tree.subtrees) (below : n ≠ tree) :
    ∃ parent ∈ tree.subtrees, n ∈ parent.children ∧ parent.kind.mayHold n.kind = true := by
  rcases mem_subtrees_cases tree member with same | ⟨parent, inner, part⟩
  · exact absurd same below
  · exact ⟨parent, inner, part, (all parent inner).held n part⟩

/-- The root is the only node of its kind. -/
theorem eq_of_root (all : tree.AllInPlace) (member : n ∈ tree.subtrees) (isRoot : n.kind = .zfl) :
    n = tree := by
  by_contra below
  obtain ⟨parent, _, _, may⟩ := all.exists_parent member below
  rw [isRoot] at may
  cases may

/-- Every rule of a source is a part of a flow. -/
theorem exists_flow (all : tree.AllInPlace) (root : tree.kind = .zfl) (member : n ∈ tree.subtrees)
    (isWhen : n.kind = .flowWhen) :
    ∃ flow ∈ tree.childrenOf .flow, n ∈ flow.childrenOf .flowWhen := by
  have notRoot {m : Node} {k : Kind} (isKind : m.kind = k) (other : k ≠ .zfl) : m ≠ tree := by
    rintro rfl
    exact other (isKind.symm.trans root)
  obtain ⟨flow, inner, part, may⟩ := all.exists_parent member (notRoot isWhen (by decide))
  rw [isWhen] at may
  have isFlow : flow.kind = .flow := beq_iff_eq.mp may
  obtain ⟨top, outer, partFlow, mayFlow⟩ := all.exists_parent inner (notRoot isFlow (by decide))
  rw [isFlow] at mayFlow
  have same : top = tree := all.eq_of_root outer (beq_iff_eq.mp mayFlow)
  rw [same] at partFlow
  exact ⟨flow, List.mem_filter.mpr ⟨partFlow, by simp [isFlow]⟩,
    List.mem_filter.mpr ⟨part, by simp [isWhen]⟩⟩

end Node.AllInPlace

theorem FlowDocument.get?_flows (d : FlowDocument) :
    d.toValue.get? "flows" = some (.mapping (d.flows.mapValues Flow.toValue)) := by
  obtain ⟨documentation, _⟩ := d
  cases documentation <;> rfl

/-- **The rules of a document are the rules of its source.** Every rule of a source stands in a
flow. What the document has for a flow are the records of its rules in order, each said by the node
of the rule alone; every conditional block in a rule is there once, and every action in a rule is in
exactly one list. -/
theorem Parse.rules (limit : Nat) {source : String} {tokens : List Token}
    (lexed : Token.lex source = .ok tokens) :
    ∃ p, Parse.ofSource? .flow limit source = .ok p ∧
      (FlowBuilder.ofTree p.tree).document.flows.mapValues (·.whens) =
        OrderedMap.ofEntries ((p.tree.childrenOf .flow).map fun flow =>
          ((flow.childText .flowName).getD "",
            (flow.childrenOf .flowWhen).map When.ofNode)) ∧
      (Model.ofFlowTree p.tree).document.get? "flows" =
        some (.mapping ((FlowBuilder.ofTree p.tree).document.flows.mapValues Flow.toValue)) ∧
      ∀ n ∈ p.tree.subtrees, n.kind = .flowWhen →
        (∃ flow ∈ p.tree.childrenOf .flow, n ∈ flow.childrenOf .flowWhen) ∧
          (When.ofNode n).conditionals.Perm
            ((n.subtrees.filter (·.kind == .flowWhenIf)).map Conditional.ofNode) ∧
          ∀ sort : ActionSort, ((When.ofNode n).listed sort).Perm (sort.texts n.subtrees) := by
  have ended := (Token.lex_inOrder lexed).ended
  have all := Parse.allInPlace limit ended
  refine ⟨_, Parse.ofSource?_of_lex lexed .flow limit, ?_, FlowDocument.get?_flows _, ?_⟩
  · refine (FlowBuilder.rules_ofTree all).trans (congrArg OrderedMap.ofEntries ?_)
    rw [List.map_eq_flatMap]
    refine List.flatMap_congr fun flow member => ?_
    obtain ⟨part, isFlow⟩ := List.mem_filter.mp member
    -- every flow of a source has a name
    obtain ⟨_, _, shaped⟩ := Parse.ofTokens_shaped .flow limit ended
    have below := Node.mem_subtrees_of_below (Node.mem_subtreesOf_self part)
    have needed : Node.Kind.flowName ∈ flow.kind.needs := by
      rw [beq_iff_eq.mp isFlow]
      decide
    obtain ⟨name, found⟩ := Option.isSome_iff_exists.mp ((shaped flow below).hasChild needed)
    rw [FlowBuilder.rulesOfFlow, Node.childText, found]
    rfl
  · intro n member isWhen
    refine ⟨all.exists_flow rfl member isWhen, When.conditionals_perm isWhen, fun sort => ?_⟩
    refine When.listed_perm isWhen (fun m below => all m ?_) sort
    exact Node.subtrees_subset _ member below

/-- A rule with conditional blocks inside a conditional block and inside its last branch. -/
def FlowBuilder.nestedRule : String :=
  "flow F \x7b when a \x7b
    if \"x\" \x7b command b if \"y\" \x7b event c \x7d \x7d
    else if \"z\" \x7b policy \"p\" \x7d
    else \x7b if \"w\" \x7b command d \x7d event e \x7d \x7d \x7d"

/-- The record of this rule: the inner blocks come before the outer one, and each block has its own
actions alone. -/
def FlowBuilder.nestedRecord : When :=
  { triggers := ["a"]
    conditionals := [
      { condition := "y", actions := { events := ["c"] } },
      { condition := "w", actions := { commands := ["d"] } },
      { condition := "x"
        actions := { commands := ["b"] }
        elseIfs := [{ condition := "z", actions := { policies := ["p"] } }]
        otherwise := some { events := ["e"] } }] }

theorem Parse.rules_nestedRule :
    ∃ p, Parse.ofSource? .flow 10 FlowBuilder.nestedRule = .ok p ∧
      (FlowBuilder.ofTree p.tree).document.flows.mapValues (·.whens) =
        [("F", [FlowBuilder.nestedRecord])] := by
  obtain ⟨tokens, lexed⟩ : ∃ tokens, Token.lex FlowBuilder.nestedRule = .ok tokens :=
    Token.exists_of_isOk (by decide +kernel)
  obtain ⟨p, parsed, rules, _⟩ := Parse.rules 10 lexed
  refine ⟨p, parsed, rules.trans ?_⟩
  have computed : (Parse.ofSource? .flow 10 FlowBuilder.nestedRule).toOption.map (fun p =>
      OrderedMap.ofEntries ((p.tree.childrenOf .flow).map fun flow =>
        ((flow.childText .flowName).getD "", (flow.childrenOf .flowWhen).map When.ofNode))) =
        some [("F", [FlowBuilder.nestedRecord])] := by decide +kernel
  rw [parsed] at computed
  exact Option.some.inj computed

end EntityFlow
