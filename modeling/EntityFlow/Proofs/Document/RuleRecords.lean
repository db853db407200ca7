import EntityFlow.Document.FlowBuilder
import EntityFlow.Proofs.Grammar.Shapes

/-!
# Records of rules

The record of a rule is said by the node of the rule alone (`When.ofNode`): the actions of a rule or
branch are those that are parts of its own node, the further branches of a conditional block are the
parts of its node, and the rule has all conditional blocks at any depth, an inner one before the one
around it.

* **places**: `Node.Kind.mayHold` says in which nodes the nodes of a rule stand in a source
  (`Node.Shaped.placed`);
* **conditional blocks**: each one in a rule is in its record once (`When.conditionals_perm`);
* **actions**: each one in a rule is in exactly one list of its record (`When.listed_perm`).
-/

namespace EntityFlow

/-! ## Actions -/

/-- The sorts of action. -/
inductive ActionSort
  | command
  | event
  | policy
deriving Repr, DecidableEq

namespace ActionSort

/-- The kind of the nodes for an action. -/
def kind : ActionSort → Node.Kind
  | .command => .flowWhenCommand
  | .event => .flowWhenEvent
  | .policy => .flowWhenPolicy

/-- What the node of an action says: the name of the command or event, or the text of the policy. -/
def text : ActionSort → Node → String
  | .command, n => (n.childText .id).getD ""
  | .event, n => (n.childText .id).getD ""
  | .policy, n => (FlowBuilder.valueText? n).getD ""

/-- The actions of a sort among some nodes. -/
def texts (sort : ActionSort) (ns : List Node) : List String :=
  (ns.filter (·.kind == sort.kind)).map sort.text

/-- The list of a sort. -/
def list : ActionSort → Actions → List String
  | .command, a => a.commands
  | .event, a => a.events
  | .policy, a => a.policies

end ActionSort

namespace Actions

/-- The actions among some nodes, of each sort in the order of the source. -/
def ofParts (parts : List Node) : Actions :=
  { commands := ActionSort.command.texts parts
    events := ActionSort.event.texts parts
    policies := ActionSort.policy.texts parts }

/-- More actions of each sort. -/
def append (a more : Actions) : Actions :=
  { commands := a.commands ++ more.commands
    events := a.events ++ more.events
    policies := a.policies ++ more.policies }

theorem list_ofParts (sort : ActionSort) (parts : List Node) :
    sort.list (ofParts parts) = sort.texts parts := by
  cases sort <;> rfl

theorem empty_append (a : Actions) : Actions.append {} a = a := by
  simp [append]

theorem append_ofParts (a : Actions) (first second : List Node) :
    (a.append (ofParts first)).append (ofParts second) = a.append (ofParts (first ++ second)) := by
  simp [append, ofParts, ActionSort.texts]

/-- The node of an action adds it to the list of its sort. -/
theorem append_ofParts_action {n : Node} (sort : ActionSort) (action : n.kind = sort.kind)
    (a : Actions) :
    a.append (ofParts [n]) =
      match sort with
      | .command => { a with commands := a.commands ++ [sort.text n] }
      | .event => { a with events := a.events ++ [sort.text n] }
      | .policy => { a with policies := a.policies ++ [sort.text n] } := by
  cases sort <;> simp [append, ofParts, ActionSort.texts, action, ActionSort.kind]

/-- Nodes that are no actions add none. -/
theorem append_ofParts_of_ne {n : Node} (other : ∀ sort : ActionSort, n.kind ≠ sort.kind)
    (a : Actions) : a.append (ofParts [n]) = a := by
  have none (sort : ActionSort) : sort.texts [n] = [] := by simp [ActionSort.texts, other sort]
  simp [append, ofParts, none]

end Actions

/-! ## Records -/

/-- The further branch that a node declares. -/
def ElseIf.ofNode (n : Node) : ElseIf :=
  { condition := FlowBuilder.condition n.children, actions := Actions.ofParts n.children }

/-- The conditional block that a node declares: its own actions, the further branches that continue
it and its last branch. -/
def Conditional.ofNode (n : Node) : Conditional :=
  { condition := FlowBuilder.condition n.children
    actions := Actions.ofParts n.children
    elseIfs := (n.childrenOf .flowWhenElseIf).map ElseIf.ofNode
    otherwise := (n.child .flowWhenElse).map fun branch => Actions.ofParts branch.children }

/-- The conditional blocks among some nodes and the nodes below them, an inner one before the one
around it. -/
def Conditional.within (ns : List Node) : List Conditional :=
  ((Node.postorderOf ns).filter (·.kind == .flowWhenIf)).map Conditional.ofNode

@[simp] theorem Conditional.within_nil : Conditional.within [] = [] := by
  simp [Conditional.within]

theorem Conditional.within_cons (n : Node) (rest : List Node) :
    Conditional.within (n :: rest) = Conditional.within [n] ++ Conditional.within rest := by
  simp [Conditional.within]

theorem Conditional.within_if {n : Node} (isIf : n.kind = .flowWhenIf) :
    Conditional.within [n] = Conditional.within n.children ++ [Conditional.ofNode n] := by
  simp [Conditional.within, Node.postorder_eq, isIf]

theorem Conditional.within_of_ne {n : Node} (other : n.kind ≠ .flowWhenIf) :
    Conditional.within [n] = Conditional.within n.children := by
  simp [Conditional.within, Node.postorder_eq, other]

/-- The rule that a node declares. -/
def When.ofNode (n : Node) : When :=
  { triggers := (n.childrenOf .flowWhenTrigger).flatMap (FlowBuilder.names · .flowWhenEventTrigger)
    actions := Actions.ofParts n.children
    conditionals := Conditional.within n.children }

/-- The actions of a sort in all lists of a conditional block. -/
def Conditional.listed (sort : ActionSort) (c : Conditional) : List String :=
  sort.list c.actions ++ c.elseIfs.flatMap (sort.list ·.actions) ++
    c.otherwise.toList.flatMap sort.list

/-- The actions of a sort in all lists of a rule. -/
def When.listed (sort : ActionSort) (w : When) : List String :=
  sort.list w.actions ++ w.conditionals.flatMap (·.listed sort)

/-! ## Places -/

namespace Node

/-- Whether a node of a kind is a rule or a branch. -/
def Kind.isBranch (k : Kind) : Bool :=
  [.flowWhen, .flowWhenIf, .flowWhenElseIf, .flowWhenElse].contains k

/-- Whether a node of a kind may have a part of another one in the flow language, as far as rules
are concerned: rules stand in flows, further branches in conditional blocks, and actions and
conditional blocks in rules and branches. -/
def Kind.mayHold (k : Kind) : Kind → Bool
  | .zfl => false
  | .flow => k == .zfl
  | .flowWhen => k == .flow
  | .flowWhenElseIf => k == .flowWhenIf
  | .flowWhenElse => k == .flowWhenIf
  | .flowWhenCommand => k.isBranch
  | .flowWhenEvent => k.isBranch
  | .flowWhenPolicy => k.isBranch
  | .flowWhenIf => k.isBranch
  | _ => true

/-- Whether a node of a kind is neither a rule nor a branch nor around one. -/
def Kind.isOutside (k : Kind) : Bool := !(k == .zfl || k == .flow || k.isBranch)

/-- Whether a node of a kind may stand anywhere, and so is no rule, branch or action. -/
def Kind.isFree (k : Kind) : Bool := k.isOutside && Kind.mayHold .id k

theorem Kind.isFree_of_mayHold {k part : Kind} (outside : k.isOutside = true)
    (may : k.mayHold part = true) : part.isFree = true := by
  have none : k ≠ .zfl ∧ k ≠ .flow ∧ k.isBranch = false := by
    simpa [isOutside, not_or, and_assoc] using outside
  obtain ⟨noRoot, noFlow, noBranch⟩ := none
  have noIf : k ≠ .flowWhenIf := by
    rintro rfl
    cases noBranch
  cases part with
  | zfl => cases may
  | flow => exact absurd (beq_iff_eq.mp may) noRoot
  | flowWhen => exact absurd (beq_iff_eq.mp may) noFlow
  | flowWhenElseIf => exact absurd (beq_iff_eq.mp may) noIf
  | flowWhenElse => exact absurd (beq_iff_eq.mp may) noIf
  | flowWhenCommand => exact absurd may (by simp [mayHold, noBranch])
  | flowWhenEvent => exact absurd may (by simp [mayHold, noBranch])
  | flowWhenPolicy => exact absurd may (by simp [mayHold, noBranch])
  | flowWhenIf => exact absurd may (by simp [mayHold, noBranch])
  | _ => rfl

/-- The parts of a node stand where they may, and there are no two triggers or last branches. -/
structure InPlace (n : Node) : Prop where
  held : ∀ part ∈ n.children, n.kind.mayHold part.kind = true
  trigger : n.children.countP (·.kind == .flowWhenTrigger) ≤ 1
  otherwise : n.children.countP (·.kind == .flowWhenElse) ≤ 1

/-- A node and all nodes below it have their parts where they may stand. -/
def AllInPlace (n : Node) : Prop := ∀ m ∈ n.subtrees, m.InPlace

namespace AllInPlace

variable {n : Node}

theorem placed (all : n.AllInPlace) : n.InPlace := all n n.self_mem_subtrees

theorem part (all : n.AllInPlace) {part : Node} (member : part ∈ n.children) : part.AllInPlace :=
  Everywhere.part all member

/-- Below a node that is neither a rule nor a branch nor around one, there is nothing of a rule. -/
theorem isFree_below (all : n.AllInPlace) (outside : n.kind.isOutside = true) :
    ∀ m ∈ subtreesOf n.children, m.kind.isFree = true := by
  refine forall_subtreesOf_of_step n.children ?_ ?_
  · intro part member
    exact Kind.isFree_of_mayHold outside (all.placed.held part member)
  · intro m below free part member
    exact Kind.isFree_of_mayHold (Bool.and_eq_true_iff.mp free).1
      ((all m (mem_subtrees_of_below below)).held part member)

/-- Such a node has no conditional blocks within. -/
theorem within_eq_nil (all : n.AllInPlace) (outside : n.kind.isOutside = true) :
    Conditional.within [n] = [] := by
  unfold Conditional.within
  rw [List.map_eq_nil_iff, List.filter_eq_nil_iff]
  intro m member isIf
  rw [beq_iff_eq] at isIf
  rw [postorderOf_cons, postorderOf_nil, List.append_nil] at member
  rcases List.mem_cons.mp (subtrees_eq n ▸ n.postorder_perm.mem_iff.mp member) with rfl | below
  · rw [isIf] at outside
    cases outside
  · have free := all.isFree_below outside m below
    rw [isIf] at free
    cases free

end AllInPlace

end Node

theorem Language.shapes_mayHold :
    (Language.flow.shapes.all fun shape =>
      shape.2.yields.all fun k => shape.1.mayHold k) = true := by
  decide

/-- The nodes of a source of the flow language stand where they may. -/
theorem Node.Shaped.placed {limit : Nat} {first last : Reading} {n : Node}
    (shaped : n.Shaped limit Language.flow.shapes first last) : n.InPlace := by
  have single (k : Kind) (check : (Language.flow.shapes.all fun shape => shape.2.single k) = true) :
      n.children.countP (·.kind == k) ≤ 1 := by
    refine shaped.countP_le_one (List.all_eq_true.mpr fun shape among => ?_)
    rw [List.all_eq_true.mp check shape among, Bool.or_true]
  refine ⟨?_, single .flowWhenTrigger (by decide), single .flowWhenElse (by decide)⟩
  intro part member
  obtain ⟨shape, among, yields⟩ := List.mem_flatMap.mp (shaped.kind_mem_parts part member)
  split at yields
  · rename_i same
    rw [← same]
    exact List.all_eq_true.mp (List.all_eq_true.mp Language.shapes_mayHold shape among) _ yields
  · cases yields

namespace Node.InPlace

/-- At most one of the parts of a kind is the first one. -/
theorem childrenOf_eq {n : Node} {k : Kind} (single : n.children.countP (·.kind == k) ≤ 1) :
    n.childrenOf k = (n.child k).toList := by
  rw [List.countP_eq_length_filter] at single
  rw [Node.child, ← List.head?_filter, Node.childrenOf]
  generalize n.children.filter (·.kind == k) = parts at single ⊢
  match parts with
  | [] => rfl
  | [part] => rfl
  | part :: other :: rest =>
      rw [List.length_cons, List.length_cons] at single
      omega

end Node.InPlace

/-! ## Every action in one list -/

namespace ActionSort

variable (sort : ActionSort)

/-- The actions of a sort among the nodes below some nodes. -/
def below (ns : List Node) : List String :=
  sort.texts (Node.subtreesOf ns)

/-- The actions of a sort of the further branches among some nodes. -/
def branchTexts (ns : List Node) : List String :=
  (ns.filter (·.kind == .flowWhenElseIf)).flatMap (sort.texts ·.children) ++
    (ns.filter (·.kind == .flowWhenElse)).flatMap (sort.texts ·.children)

theorem texts_append (first second : List Node) :
    sort.texts (first ++ second) = sort.texts first ++ sort.texts second := by
  simp [texts]

theorem below_cons (n : Node) (rest : List Node) :
    sort.below (n :: rest) = sort.below [n] ++ sort.below rest := by
  simp [below, texts]

theorem below_singleton (n : Node) :
    sort.below [n] = sort.texts [n] ++ sort.below n.children := by
  rw [below, Node.subtreesOf_cons, Node.subtreesOf_nil, List.append_nil, Node.subtrees_eq,
    ← List.singleton_append, texts_append, below]

theorem texts_of_ne {n : Node} (other : n.kind ≠ sort.kind) : sort.texts [n] = [] := by
  simp [texts, other]

theorem branchTexts_of_ne {n : Node} (noElseIf : n.kind ≠ .flowWhenElseIf)
    (noElse : n.kind ≠ .flowWhenElse) : sort.branchTexts [n] = [] := by
  simp [branchTexts, noElseIf, noElse]

/-- Only a conditional block has further branches. -/
theorem branchTexts_eq_nil {n : Node} (placed : n.InPlace) (other : n.kind ≠ .flowWhenIf) :
    sort.branchTexts n.children = [] := by
  have none (k : Node.Kind) (held : ∀ k', Node.Kind.mayHold k' k = (k' == .flowWhenIf)) :
      n.children.filter (·.kind == k) = [] := by
    rw [List.filter_eq_nil_iff]
    intro part member isBranch
    have may := placed.held part member
    rw [beq_iff_eq.mp isBranch, held] at may
    exact other (beq_iff_eq.mp may)
  rw [branchTexts, none .flowWhenElseIf fun _ => rfl, none .flowWhenElse fun _ => rfl]
  rfl

/-- A conditional block lists the actions of its own node and of its further branches. -/
theorem listed_ofNode {n : Node} (placed : n.InPlace) :
    (Conditional.ofNode n).listed sort = sort.texts n.children ++ sort.branchTexts n.children := by
  have branches : n.children.filter (·.kind == .flowWhenElse) = (n.child .flowWhenElse).toList :=
    Node.InPlace.childrenOf_eq placed.otherwise
  rw [Conditional.listed, branchTexts, branches, Conditional.ofNode, Actions.list_ofParts,
    List.append_assoc, List.flatMap_map, Node.childrenOf]
  cases n.child .flowWhenElse <;> simp [ElseIf.ofNode, Actions.list_ofParts]

theorem branchTexts_cons_perm (n : Node) (rest : List Node) :
    (sort.branchTexts (n :: rest)).Perm (sort.branchTexts [n] ++ sort.branchTexts rest) := by
  rw [List.perm_iff_count]
  intro s
  rw [← List.singleton_append]
  simp only [branchTexts, List.filter_append, List.flatMap_append, List.count_append]
  omega

/-- Below a node that is neither a rule nor a branch nor around one there are no actions. -/
theorem below_eq_nil {n : Node} (all : n.AllInPlace) (outside : n.kind.isOutside = true) :
    sort.below n.children = [] := by
  unfold below texts
  rw [List.map_eq_nil_iff, List.filter_eq_nil_iff]
  intro m member isAction
  have free := all.isFree_below outside m member
  rw [beq_iff_eq.mp isAction] at free
  cases sort <;> cases free

mutual

/-- The actions in and below a part of a rule are those that the part is, those of the branch that
it is, and those of the conditional blocks within. -/
theorem below_part : (n : Node) → (all : n.AllInPlace) →
    (bounded : ∃ parent : Node.Kind, parent.isBranch = true ∧ parent.mayHold n.kind = true) →
    (sort.below [n]).Perm
      (sort.texts [n] ++ sort.branchTexts [n] ++
        (Conditional.within [n]).flatMap (Conditional.listed sort))
  | ⟨k, text, span, parts⟩, all, bounded => by
      have inside (branch : k.isBranch = true) := below_parts parts
        (fun part member => all.part member)
        fun part member => ⟨k, branch, all.placed.held part member⟩
      have noAction (branch : k.isBranch = true) : k ≠ sort.kind := by
        rintro rfl
        cases sort <;> cases branch
      rw [below_singleton]
      by_cases isIf : k = .flowWhenIf
      · subst isIf
        rw [sort.texts_of_ne (noAction rfl), sort.branchTexts_of_ne (by simp) (by simp),
          Conditional.within_if rfl, List.flatMap_append, List.flatMap_singleton,
          sort.listed_ofNode all.placed]
        exact (inside rfl).trans List.perm_append_comm
      · by_cases isBranch : k = .flowWhenElseIf ∨ k = .flowWhenElse
        · have branch : k.isBranch = true := by
            rcases isBranch with rfl | rfl <;> rfl
          have own : sort.branchTexts [⟨k, text, span, parts⟩] = sort.texts parts := by
            rcases isBranch with rfl | rfl <;> simp [branchTexts]
          rw [sort.texts_of_ne (noAction branch), own, Conditional.within_of_ne isIf]
          have none : sort.branchTexts parts = [] := sort.branchTexts_eq_nil all.placed isIf
          have perm := inside branch
          rw [none, List.append_nil] at perm
          exact perm
        · obtain ⟨noElseIf, noElse⟩ := not_or.mp isBranch
          have outside : k.isOutside = true := by
            obtain ⟨parent, branch, may⟩ := bounded
            have may : parent.mayHold k = true := may
            have noRoot : k ≠ .zfl := by
              rintro rfl
              cases may
            have noFlow : k ≠ .flow := by
              rintro rfl
              rw [beq_iff_eq.mp may] at branch
              cases branch
            have noWhen : k ≠ .flowWhen := by
              rintro rfl
              rw [beq_iff_eq.mp may] at branch
              cases branch
            simp [Node.Kind.isOutside, Node.Kind.isBranch, noRoot, noFlow, noWhen, isIf, noElseIf,
              noElse]
          rw [sort.below_eq_nil all outside, sort.branchTexts_of_ne noElseIf noElse,
            all.within_eq_nil outside]
          simp

theorem below_parts : (ns : List Node) → (all : ∀ n ∈ ns, n.AllInPlace) →
    (bounded : ∀ n ∈ ns, ∃ parent : Node.Kind,
      parent.isBranch = true ∧ parent.mayHold n.kind = true) →
    (sort.below ns).Perm
      (sort.texts ns ++ sort.branchTexts ns ++
        (Conditional.within ns).flatMap (Conditional.listed sort))
  | [], _, _ => by simp [below, texts, branchTexts]
  | n :: rest, all, bounded => by
      have first := below_part n (all n List.mem_cons_self) (bounded n List.mem_cons_self)
      have later := below_parts rest (fun m member => all m (List.mem_cons_of_mem _ member))
        fun m member => bounded m (List.mem_cons_of_mem _ member)
      have split : sort.texts (n :: rest) = sort.texts [n] ++ sort.texts rest :=
        sort.texts_append [n] rest
      rw [below_cons, split, Conditional.within_cons, List.flatMap_append]
      refine (first.append later).trans ?_
      rw [List.perm_iff_count]
      intro s
      have counted := List.perm_iff_count.mp (sort.branchTexts_cons_perm n rest) s
      simp only [List.count_append] at counted ⊢
      omega

end

end ActionSort

/-- Every action in a rule is in exactly one list of the record of the rule. -/
theorem When.listed_perm {n : Node} (isWhen : n.kind = .flowWhen) (all : n.AllInPlace)
    (sort : ActionSort) : ((When.ofNode n).listed sort).Perm (sort.texts n.subtrees) := by
  have inside := sort.below_parts n.children (fun part member => all.part member)
    fun part member => ⟨n.kind, by rw [isWhen]; rfl, all.placed.held part member⟩
  have noAction : n.kind ≠ sort.kind := by
    rw [isWhen]
    cases sort <;> decide
  rw [sort.branchTexts_eq_nil all.placed (by simp [isWhen]), List.append_nil] at inside
  rw [Node.subtrees_eq, ← List.singleton_append, sort.texts_append, sort.texts_of_ne noAction,
    List.nil_append, When.listed, When.ofNode, Actions.list_ofParts]
  exact inside.symm

/-- The conditional blocks of a rule are those at any depth in it, each once. -/
theorem When.conditionals_perm {n : Node} (isWhen : n.kind = .flowWhen) :
    (When.ofNode n).conditionals.Perm
      ((n.subtrees.filter (·.kind == .flowWhenIf)).map Conditional.ofNode) := by
  have noIf : n.kind ≠ .flowWhenIf := by simp [isWhen]
  rw [Node.subtrees_eq, List.filter_cons_of_neg (by simp [noIf])]
  exact ((Node.postorderOf_perm n.children).filter _).map _

end EntityFlow
