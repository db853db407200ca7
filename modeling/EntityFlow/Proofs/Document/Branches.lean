import EntityFlow.Proofs.Document.RuleRecords

/-!
# Open rules and branches

A rule is built with open frames: a branch opens one, and what is in it finds its owner by a search
from the top down. The parts of a rule or branch change the innermost frame as
`FlowFrame.withParts` says, and give their conditional blocks to the nearest rule
(`FlowFrame.giveBlocks`). So a whole rule that is built gives the flow around it the record that its
node declares (`FlowBuilder.Shows.addWhen`).
-/

namespace EntityFlow

/-! ## Frames -/

namespace FlowFrame

/-- The kind of the node that a frame of a rule or branch is opened for. -/
def branchKind? : FlowFrame → Option Node.Kind
  | .when _ => some .flowWhen
  | .conditional _ => some .flowWhenIf
  | .elseIf _ => some .flowWhenElseIf
  | .otherwise _ => some .flowWhenElse
  | _ => none

/-- The frame of a rule or branch with what some nodes add to it: their actions and, to a
conditional block, the branches that they are. -/
def withParts (parts : List Node) : FlowFrame → FlowFrame
  | .when r => .when { r with actions := r.actions.append (Actions.ofParts parts) }
  | .conditional r =>
      .conditional
        { r with
          actions := r.actions.append (Actions.ofParts parts)
          elseIfs := r.elseIfs ++ (parts.filter (·.kind == .flowWhenElseIf)).map ElseIf.ofNode
          otherwise := (parts.filter (·.kind == .flowWhenElse)).foldl
            (fun _ branch => some (Actions.ofParts branch.children)) r.otherwise }
  | .elseIf r => .elseIf { r with actions := r.actions.append (Actions.ofParts parts) }
  | .otherwise actions => .otherwise (actions.append (Actions.ofParts parts))
  | other => other

/-- The frame of a conditional block. -/
theorem conditional_of_branchKind? {frame : FlowFrame}
    (branch : frame.branchKind? = some .flowWhenIf) : ∃ block, frame = .conditional block := by
  cases frame with
  | conditional block => exact ⟨block, rfl⟩
  | _ => cases branch

@[simp] theorem branchKind?_withParts (parts : List Node) (frame : FlowFrame) :
    (frame.withParts parts).branchKind? = frame.branchKind? := by
  cases frame <;> rfl

theorem withParts_nil (frame : FlowFrame) : frame.withParts [] = frame := by
  cases frame <;> simp [withParts, Actions.append, Actions.ofParts, ActionSort.texts]

theorem withParts_withParts (first second : List Node) (frame : FlowFrame) :
    (frame.withParts first).withParts second = frame.withParts (first ++ second) := by
  cases frame <;> simp [withParts, Actions.append_ofParts]

/-- Nodes that are neither actions nor further branches add nothing. -/
theorem withParts_of_ne {n : Node} (noAction : ∀ sort : ActionSort, n.kind ≠ sort.kind)
    (noElseIf : n.kind ≠ .flowWhenElseIf) (noElse : n.kind ≠ .flowWhenElse) (frame : FlowFrame) :
    frame.withParts [n] = frame := by
  cases frame <;> simp [withParts, Actions.append_ofParts_of_ne noAction, noElseIf, noElse]

/-- The frames with more conditional blocks for the nearest rule. -/
def giveBlocks (blocks : List Conditional) : List FlowFrame → List FlowFrame
  | [] => []
  | .when r :: rest => .when { r with conditionals := r.conditionals ++ blocks } :: rest
  | frame :: rest => frame :: giveBlocks blocks rest

theorem giveBlocks_cons_of_ne {frame : FlowFrame} (other : ∀ r, frame ≠ .when r)
    (blocks : List Conditional) (rest : List FlowFrame) :
    giveBlocks blocks (frame :: rest) = frame :: giveBlocks blocks rest := by
  rw [giveBlocks]
  exact fun r => other r

@[simp] theorem giveBlocks_nil (frames : List FlowFrame) : giveBlocks [] frames = frames := by
  fun_induction giveBlocks [] frames with
  | case1 => rfl
  | case2 => simp
  | case3 frame rest _ ih => rw [ih]

theorem giveBlocks_giveBlocks (first second : List Conditional) (frames : List FlowFrame) :
    giveBlocks second (giveBlocks first frames) = giveBlocks (first ++ second) frames := by
  fun_induction giveBlocks first frames with
  | case1 => rfl
  | case2 r rest => simp [giveBlocks]
  | case3 frame rest other ih =>
      have other : ∀ r, frame ≠ .when r := fun r => other r
      rw [giveBlocks_cons_of_ne other, giveBlocks_cons_of_ne other, ih]

/-- The nearest rule is the one that a finished conditional block goes to. -/
theorem changeFirst?_addConditional? (block : Conditional) (frames : List FlowFrame) :
    (Scope.changeFirst? (addConditional? block) frames).getD frames =
      giveBlocks [block] frames := by
  induction frames with
  | nil => rfl
  | cons frame rest ih =>
      cases frame with
      | when r => rfl
      | _ =>
          rw [giveBlocks_cons_of_ne (by simp), ← ih]
          cases found : Scope.changeFirst? (addConditional? block) rest <;>
            simp [Scope.changeFirst?, addConditional?, found]

/-- Blocks given to the frames leave on top a frame of the same kind, and it does not matter whether
its parts are added before or after. -/
theorem giveBlocks_cons (blocks : List Conditional) (top : FlowFrame) (rest : List FlowFrame) :
    ∃ top' rest', giveBlocks blocks (top :: rest) = top' :: rest' ∧
      top'.branchKind? = top.branchKind? ∧
      ∀ parts, top'.withParts parts :: rest' = giveBlocks blocks (top.withParts parts :: rest) := by
  cases top with
  | when r => exact ⟨_, rest, rfl, rfl, fun _ => rfl⟩
  | _ => exact ⟨_, giveBlocks blocks rest, rfl, rfl, fun _ => rfl⟩

end FlowFrame

/-! ## Steps -/

namespace FlowBuilder

/-- The builder has a document and open frames. -/
structure Shows (b : FlowBuilder) (document : FlowDocument) (frames : List FlowFrame) : Prop where
  document : b.document = document
  frames : b.scope.frames = frames

namespace Shows

variable {b : FlowBuilder} {document : FlowDocument} {top : FlowFrame}
  {frames rest : List FlowFrame}

theorem enter (shows : Shows b document frames) (frame : FlowFrame) :
    Shows (b.enter frame) document (frame :: frames) := by
  refine ⟨shows.document, ?_⟩
  rw [← shows.frames]
  rfl

theorem skip (shows : Shows b document frames) (n : Node) (context : Context) :
    Shows (b.skip n context) document frames :=
  ⟨shows.document, shows.frames⟩

theorem changeNearest (shows : Shows b document frames) (change : FlowFrame → Option FlowFrame) :
    Shows (b.changeNearest change) document
      ((Scope.changeFirst? change frames).getD frames) := by
  refine ⟨shows.document, ?_⟩
  rw [FlowBuilder.changeNearest, Scope.changeNearest, Scope.changeNearest?, ← shows.frames]
  cases Scope.changeFirst? change b.scope.frames <;> rfl

/-- A frame that is closed is handed on. -/
theorem exit {document' : FlowDocument} {after : List FlowFrame}
    (shows : Shows b document (top :: rest))
    (register : ∀ {closed : FlowBuilder}, Shows closed document rest →
      Shows (closed.register top) document' after) : Shows b.exit document' after := by
  have closed : b.scope.exit = (some top, ⟨rest⟩) := by
    rw [Scope.exit, shows.frames]
    rfl
  rw [FlowBuilder.exit, closed]
  exact register ⟨shows.document, rfl⟩

/-- An action goes to the innermost frame, as that is one of a rule or branch. -/
theorem changeActions {parent : Node.Kind} (shows : Shows b document (top :: rest))
    (branch : top.branchKind? = some parent) {n : Node} (sort : ActionSort)
    (action : n.kind = sort.kind) {change : Actions → Actions}
    (adds : ∀ a, change a = a.append (Actions.ofParts [n])) :
    Shows (b.changeActions change) document (top.withParts [n] :: rest) := by
  have noElseIf : n.kind ≠ .flowWhenElseIf := by
    rw [action]
    cases sort <;> decide
  have noElse : n.kind ≠ .flowWhenElse := by
    rw [action]
    cases sort <;> decide
  have changed : FlowFrame.changeActions? change top = some (top.withParts [n]) := by
    cases top with
    | when r => simp [FlowFrame.changeActions?, FlowFrame.withParts, adds]
    | conditional r =>
        simp [FlowFrame.changeActions?, FlowFrame.withParts, adds, noElseIf, noElse]
    | elseIf r => simp [FlowFrame.changeActions?, FlowFrame.withParts, adds]
    | otherwise actions => simp [FlowFrame.changeActions?, FlowFrame.withParts, adds]
    | _ => cases branch
  have nearest := shows.changeNearest (FlowFrame.changeActions? change)
  rw [Scope.changeFirst?, changed] at nearest
  exact nearest

end Shows

/-- A part that is no action, opens no branch and was not given up is passed over. -/
theorem addRulePart_of_free {n : Node} (free : n.kind.isFree = true) (b : FlowBuilder) :
    addRulePart n b = if n.kind = .error then b.skip n .when else b := by
  obtain ⟨k, text, span, parts⟩ := n
  cases k with
  | error => rw [addRulePart, if_pos rfl]
  | flowWhenIf => cases free
  | flowWhenElseIf => cases free
  | flowWhenElse => cases free
  | flowWhenCommand => cases free
  | flowWhenEvent => cases free
  | flowWhenPolicy => cases free
  | _ => rw [addRulePart] <;> simp

end FlowBuilder

/-- The frame of a conditional block ends with the record that its node declares. -/
theorem FlowFrame.withParts_conditional {n : Node} (placed : n.InPlace) :
    (FlowFrame.conditional { condition := FlowBuilder.condition n.children }).withParts n.children =
      .conditional (Conditional.ofNode n) := by
  have branches : n.children.filter (·.kind == .flowWhenElse) = (n.child .flowWhenElse).toList :=
    Node.InPlace.childrenOf_eq placed.otherwise
  rw [withParts, branches, Actions.empty_append, List.nil_append, Conditional.ofNode,
    Node.childrenOf]
  cases n.child .flowWhenElse <;> rfl

namespace FlowBuilder.Shows

variable {b : FlowBuilder} {document : FlowDocument} {top : FlowFrame}
  {frames rest : List FlowFrame} {parent : Node.Kind}

/-- A part that is neither an action nor a branch leaves the frames as they are. -/
theorem addFree (shows : Shows b document (top :: rest)) {n : Node} (all : n.AllInPlace)
    (free : n.kind.isFree = true) :
    Shows (addRulePart n b) document
      (FlowFrame.giveBlocks (Conditional.within [n]) (top.withParts [n] :: rest)) := by
  have ne {k : Node.Kind} (bound : k.isFree = false) : n.kind ≠ k := by
    intro same
    rw [same, bound] at free
    cases free
  rw [all.within_eq_nil (Bool.and_eq_true_iff.mp free).1, FlowFrame.giveBlocks_nil,
    FlowFrame.withParts_of_ne (fun sort => ne (by cases sort <;> rfl)) (ne rfl) (ne rfl),
    addRulePart_of_free free]
  split
  · exact shows.skip n .when
  · exact shows

/-- The part for an action goes to the innermost frame. -/
theorem addAction (shows : Shows b document (top :: rest)) (branch : top.branchKind? = some parent)
    {n : Node} (all : n.AllInPlace) (sort : ActionSort) (action : n.kind = sort.kind)
    {change : Actions → Actions} (adds : ∀ a, change a = a.append (Actions.ofParts [n])) :
    Shows (b.changeActions change) document
      (FlowFrame.giveBlocks (Conditional.within [n]) (top.withParts [n] :: rest)) := by
  have outside : n.kind.isOutside = true := by
    rw [action]
    cases sort <;> rfl
  rw [all.within_eq_nil outside, FlowFrame.giveBlocks_nil]
  exact shows.changeActions branch sort action adds

/-- A conditional block that is closed goes to the nearest rule, after those inside it. -/
theorem closeConditional {n : Node} (isIf : n.kind = .flowWhenIf) (placed : n.InPlace)
    (inside : Shows b document
      (FlowFrame.giveBlocks (Conditional.within n.children)
        ((FlowFrame.conditional { condition := condition n.children }).withParts n.children ::
          frames))) :
    Shows b.exit document (FlowFrame.giveBlocks (Conditional.within [n]) frames) := by
  rw [FlowFrame.withParts_conditional placed,
    FlowFrame.giveBlocks_cons_of_ne fun _ => FlowFrame.noConfusion] at inside
  refine inside.exit fun closed => ?_
  rw [Conditional.within_if isIf, ← FlowFrame.giveBlocks_giveBlocks,
    ← FlowFrame.changeFirst?_addConditional?]
  exact closed.changeNearest _

/-- A further branch that is closed goes to the conditional block on top. -/
theorem closeElseIf {n : Node} {block : Conditional} (isElseIf : n.kind = .flowWhenElseIf)
    (inside : Shows b document
      (FlowFrame.giveBlocks (Conditional.within n.children)
        ((FlowFrame.elseIf { condition := condition n.children }).withParts n.children ::
          .conditional block :: rest))) :
    Shows b.exit document
      (FlowFrame.giveBlocks (Conditional.within [n])
        ((FlowFrame.conditional block).withParts [n] :: rest)) := by
  have noAction (sort : ActionSort) : n.kind ≠ sort.kind := by
    rw [isElseIf]
    cases sort <;> decide
  have added : (FlowFrame.conditional block).withParts [n] =
      .conditional { block with elseIfs := block.elseIfs ++ [ElseIf.ofNode n] } := by
    simp [FlowFrame.withParts, Actions.append_ofParts_of_ne noAction, isElseIf]
  rw [Conditional.within_of_ne (by simp [isElseIf]), added]
  refine inside.exit fun closed => ?_
  have nearest := closed.changeNearest
    (FlowFrame.changeConditional? fun block =>
      { block with elseIfs := block.elseIfs ++ [ElseIf.ofNode n] })
  exact nearest

/-- A last branch that is closed goes to the conditional block on top. -/
theorem closeOtherwise {n : Node} {block : Conditional} (isElse : n.kind = .flowWhenElse)
    (inside : Shows b document
      (FlowFrame.giveBlocks (Conditional.within n.children)
        ((FlowFrame.otherwise {}).withParts n.children :: .conditional block :: rest))) :
    Shows b.exit document
      (FlowFrame.giveBlocks (Conditional.within [n])
        ((FlowFrame.conditional block).withParts [n] :: rest)) := by
  have noAction (sort : ActionSort) : n.kind ≠ sort.kind := by
    rw [isElse]
    cases sort <;> decide
  have added : (FlowFrame.conditional block).withParts [n] =
      .conditional { block with otherwise := some (Actions.ofParts n.children) } := by
    simp [FlowFrame.withParts, Actions.append_ofParts_of_ne noAction, isElse]
  rw [Conditional.within_of_ne (by simp [isElse]), added]
  refine inside.exit fun closed => ?_
  have nearest := closed.changeNearest
    (FlowFrame.changeConditional? fun block =>
      { block with otherwise := some (Actions.ofParts n.children) })
  exact nearest

mutual

/-- A part of a rule or branch changes the innermost frame, and gives its conditional blocks to the
nearest rule. -/
theorem addRulePart : (n : Node) → (all : n.AllInPlace) → {b : FlowBuilder} →
    {top : FlowFrame} → {rest : List FlowFrame} → {parent : Node.Kind} →
    (may : parent.mayHold n.kind = true) → (branch : top.branchKind? = some parent) →
    (shows : Shows b document (top :: rest)) →
    Shows (FlowBuilder.addRulePart n b) document
      (FlowFrame.giveBlocks (Conditional.within [n]) (top.withParts [n] :: rest))
  | ⟨k, text, span, parts⟩, all, b, top, rest, parent, may, branch, shows => by
      have allParts : ∀ part ∈ parts, part.AllInPlace := fun part member => all.part member
      have held : ∀ part ∈ parts, k.mayHold part.kind = true := all.placed.held
      cases k with
      | flowWhenIf =>
          have noAction (sort : ActionSort) : Node.Kind.flowWhenIf ≠ sort.kind := by
            cases sort <;> decide
          rw [FlowBuilder.addRulePart, FlowFrame.withParts_of_ne noAction (by simp) (by simp)]
          exact closeConditional rfl all.placed
            (addRuleParts parts allParts held rfl (shows.enter _))
      | flowWhenElseIf =>
          rw [FlowBuilder.addRulePart]
          obtain ⟨block, rfl⟩ := FlowFrame.conditional_of_branchKind? (beq_iff_eq.mp may ▸ branch)
          exact closeElseIf rfl (addRuleParts parts allParts held rfl (shows.enter _))
      | flowWhenElse =>
          rw [FlowBuilder.addRulePart]
          obtain ⟨block, rfl⟩ := FlowFrame.conditional_of_branchKind? (beq_iff_eq.mp may ▸ branch)
          exact closeOtherwise rfl (addRuleParts parts allParts held rfl (shows.enter _))
      | flowWhenCommand =>
          rw [FlowBuilder.addRulePart]
          exact shows.addAction branch all .command rfl fun a =>
            (Actions.append_ofParts_action .command rfl a).symm
      | flowWhenEvent =>
          rw [FlowBuilder.addRulePart]
          exact shows.addAction branch all .event rfl fun a =>
            (Actions.append_ofParts_action .event rfl a).symm
      | flowWhenPolicy =>
          rw [FlowBuilder.addRulePart]
          exact shows.addAction branch all .policy rfl fun a =>
            (Actions.append_ofParts_action .policy rfl a).symm
      | zfl => cases may
      | flow =>
          rw [beq_iff_eq.mp may] at branch
          cases top <;> cases branch
      | flowWhen =>
          rw [beq_iff_eq.mp may] at branch
          cases top <;> cases branch
      | _ => exact shows.addFree all rfl

theorem addRuleParts : (ns : List Node) → (all : ∀ n ∈ ns, n.AllInPlace) →
    {b : FlowBuilder} → {top : FlowFrame} → {rest : List FlowFrame} → {parent : Node.Kind} →
    (may : ∀ n ∈ ns, parent.mayHold n.kind = true) → (branch : top.branchKind? = some parent) →
    (shows : Shows b document (top :: rest)) →
    Shows (FlowBuilder.addRuleParts ns b) document
      (FlowFrame.giveBlocks (Conditional.within ns) (top.withParts ns :: rest))
  | [], _, b, top, rest, parent, _, _, shows => by
      rw [FlowBuilder.addRuleParts, Conditional.within_nil, FlowFrame.giveBlocks_nil,
        FlowFrame.withParts_nil]
      exact shows
  | n :: ns, all, b, top, rest, parent, may, branch, shows => by
      rw [FlowBuilder.addRuleParts, Conditional.within_cons, ← FlowFrame.giveBlocks_giveBlocks]
      have first := addRulePart n (all n List.mem_cons_self) (may n List.mem_cons_self) branch shows
      obtain ⟨top', rest', frames, sameKind, commutes⟩ :=
        FlowFrame.giveBlocks_cons (Conditional.within [n]) (top.withParts [n]) rest
      rw [frames] at first
      rw [FlowFrame.branchKind?_withParts, branch] at sameKind
      have later := addRuleParts ns (fun m member => all m (List.mem_cons_of_mem _ member))
        (fun m member => may m (List.mem_cons_of_mem _ member)) sameKind first
      rw [commutes, FlowFrame.withParts_withParts] at later
      exact later

end

/-- A rule goes to the flow that is open. -/
theorem addWhen {flow : Flow} {n : Node} (isWhen : n.kind = .flowWhen) (all : n.AllInPlace)
    (shows : Shows b document (.flow flow :: rest)) :
    Shows (b.addWhen n) document
      (.flow { flow with whens := flow.whens ++ [When.ofNode n] } :: rest) := by
  have triggers : ((n.child .flowWhenTrigger).map (names · .flowWhenEventTrigger)).getD [] =
      (When.ofNode n).triggers := by
    rw [When.ofNode, Node.InPlace.childrenOf_eq all.placed.trigger]
    cases n.child .flowWhenTrigger <;> simp
  have held : ∀ part ∈ n.children, Node.Kind.flowWhen.mayHold part.kind = true := by
    rw [← isWhen]
    exact all.placed.held
  rw [FlowBuilder.addWhen, triggers]
  -- a rule has no options, so the frame stays as it is
  have opened := shows.enter (.when { triggers := (When.ofNode n).triggers })
  have options : Shows
      ((b.enter (.when { triggers := (When.ofNode n).triggers })).applyOptions n) document
      (.when { triggers := (When.ofNode n).triggers } :: .flow flow :: rest) := by
    refine ⟨opened.document, ?_⟩
    rw [FlowBuilder.applyOptions, FlowBuilder.changeTop, Scope.changeTop, opened.frames]
    rfl
  have inside := addRuleParts n.children (fun part member => all.part member) held rfl options
  have record : FlowFrame.giveBlocks (Conditional.within n.children)
      ((FlowFrame.when { triggers := (When.ofNode n).triggers }).withParts n.children ::
        .flow flow :: rest) = .when (When.ofNode n) :: .flow flow :: rest := by
    rw [FlowFrame.withParts, FlowFrame.giveBlocks, Actions.empty_append, List.nil_append]
    rfl
  rw [record] at inside
  refine inside.exit fun closed => ?_
  exact closed.changeNearest
    (FlowFrame.changeFlow? fun flow => { flow with whens := flow.whens ++ [When.ofNode n] })

end FlowBuilder.Shows

end EntityFlow
