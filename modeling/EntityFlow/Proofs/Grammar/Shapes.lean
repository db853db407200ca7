import EntityFlow.Proofs.Grammar.Progress
import EntityFlow.Proofs.Tree.Subtrees

/-!
# The shapes of nodes

A grammar tells which nodes there can be. Its shapes are the kinds of nodes that it builds, each
with the grammar that its parts are read by, and every node of a tree is an error node or was read
by a shape of its kind (`Parse.ofTokens_shaped`). What the nodes of a kind are made of is then a
question about the shapes, which are data:

* **parts**: `Grammar.yields` lists the kinds of the nodes that a grammar can yield
  (`Reads.kind_mem_yields`);
* **needs**: `Grammar.ensures` finds the kinds that are among them in any case
  (`Reads.exists_of_ensures`);
* **single parts**: `Grammar.single` finds those of which there is at most one
  (`Reads.countP_le_one`).
-/

namespace EntityFlow

namespace Grammar

/-- The ways in which a node can go on after its lead, each with its kind. A choice by the look of a
case goes on with that case. -/
def branches : List (Look × Node.Kind) → Option Node.Kind → Grammar →
    List (Option Node.Kind × Grammar)
  | [], otherwise, body => [(otherwise, body)]
  | (look, k) :: rest, otherwise, .choose look' yes no =>
      if look = look' then (some k, yes) :: branches rest otherwise no
      else (some k, .choose look' yes no) :: branches rest otherwise (.choose look' yes no)
  | (_, k) :: rest, otherwise, body => (some k, body) :: branches rest otherwise body

/-- Whether a body goes on only if one of the cases was picked. -/
def alwaysPicks : List (Look × Node.Kind) → Grammar → Bool
  | [], .fail _ => true
  | (look, _) :: rest, .choose look' _ no => look == look' && alwaysPicks rest no
  | _, _ => false

/-- The kinds of the nodes that a grammar builds, each with the grammar of its parts. -/
def shapes : Grammar → List (Node.Kind × Grammar)
  | .done => []
  | .take => []
  | .fail _ => []
  | .seq first second => first.shapes ++ second.shapes
  | .choose _ yes no => yes.shapes ++ no.shapes
  | .many _ item => item.shapes
  | .node lead cases otherwise body =>
      (branches cases otherwise body).filterMap (fun way => way.1.map (·, .seq lead way.2)) ++
        (lead.shapes ++ body.shapes)
  | .last g => g.shapes
  | .atLeastOne _ g => g.shapes
  | .markLine g => g.shapes
  | .recovering _ g => g.shapes
  | .call _ => []

/-- A body that was read was read by the branch that was picked. -/
theorem branches_sound {limit line : Nat} {body : Grammar} {r : Reading} {o : Outcome}
    (cases : List (Look × Node.Kind)) (otherwise : Option Node.Kind)
    (reads : Reads limit body line r o) :
    ∃ way, (pick line r.cursor otherwise cases, way) ∈ branches cases otherwise body ∧
      Reads limit way line r o := by
  induction cases generalizing body with
  | nil =>
      unfold branches pick
      exact ⟨body, List.mem_cons_self, reads⟩
  | cons first rest ih =>
      obtain ⟨look, k⟩ := first
      -- whatever the body is, it can go on as a whole
      have whole : ∃ way, (pick line r.cursor otherwise ((look, k) :: rest), way) ∈
          (some k, body) :: branches rest otherwise body ∧ Reads limit way line r o := by
        unfold pick
        split
        · exact ⟨body, List.mem_cons_self, reads⟩
        · obtain ⟨way, member, readsWay⟩ := ih reads
          exact ⟨way, List.mem_cons_of_mem _ member, readsWay⟩
      cases body with
      | choose look' yes no =>
          unfold branches
          split
          · rename_i same
            rw [← same] at reads
            unfold pick
            cases reads with
            | yes holds readsYes =>
                rw [if_pos holds]
                exact ⟨yes, List.mem_cons_self, readsYes⟩
            | no fails readsNo =>
                rw [if_neg (by simp [fails])]
                obtain ⟨way, member, readsWay⟩ := ih readsNo
                exact ⟨way, List.mem_cons_of_mem _ member, readsWay⟩
          · exact whole
      | _ => exact whole

section Picking

variable {limit line : Nat} {cases : List (Look × Node.Kind)} {otherwise : Option Node.Kind}

theorem pick_eq_or (c : Cursor) :
    pick line c otherwise cases = otherwise ∨
      ∃ k ∈ cases.map (·.2), pick line c otherwise cases = some k := by
  induction cases with
  | nil => exact Or.inl rfl
  | cons first rest ih =>
      unfold pick
      split
      · exact Or.inr ⟨first.2, List.mem_cons_self, rfl⟩
      · rcases ih with same | ⟨k, member, equal⟩
        · exact Or.inl same
        · exact Or.inr ⟨k, List.mem_cons_of_mem _ member, equal⟩

/-- A kind that was picked is one of those that there are. -/
theorem mem_kinds_of_pick {c : Cursor} {k : Node.Kind}
    (picked : pick line c otherwise cases = some k) : k ∈ otherwise.toList ++ cases.map (·.2) := by
  rcases pick_eq_or c with same | ⟨k', member, same⟩
  · rw [same] at picked
    rw [picked]
    exact List.mem_append_left _ (by simp)
  · rw [same] at picked
    cases picked
    exact List.mem_append_right _ member

/-- Where a body of alternatives was read, one of them was picked. -/
theorem pick_isSome_of_alwaysPicks {body : Grammar} {r last : Reading} {ns : List Node}
    (always : alwaysPicks cases body = true) (reads : Reads limit body line r (.nodes ns last)) :
    (pick line r.cursor otherwise cases).isSome = true := by
  induction cases generalizing body with
  | nil =>
      cases body with
      | fail expected => cases reads
      | _ => cases always
  | cons first rest ih =>
      obtain ⟨look, k⟩ := first
      cases body with
      | choose look' yes no =>
          obtain ⟨same, alwaysRest⟩ := Bool.and_eq_true_iff.mp always
          rw [beq_iff_eq] at same
          unfold pick
          cases reads with
          | yes holds _ =>
              rw [same, holds]
              rfl
          | no fails readsNo =>
              rw [same, fails]
              exact ih alwaysRest readsNo
      | _ => cases always

theorem alwaysPicks_eq_false {body : Grammar} {r last : Reading} {ns : List Node}
    (reads : Reads limit body line r (.nodes ns last))
    (unpicked : pick line r.cursor otherwise cases = none) : alwaysPicks cases body = false := by
  refine Bool.eq_false_iff.mpr ?_
  intro always
  have picked : (pick line r.cursor otherwise cases).isSome = true :=
    pick_isSome_of_alwaysPicks always reads
  rw [unpicked] at picked
  cases picked

end Picking

end Grammar

/-! ## Every node has a shape -/

/-- The shapes inside the constructs that contain themselves. -/
def Rule.shapes : List (Node.Kind × Grammar) :=
  [Rule.value, .argument, .field, .ruleItem].flatMap (·.grammar.shapes)

/-- The shapes of the nodes of a language. -/
def Language.shapes (language : Language) : List (Node.Kind × Grammar) :=
  (language.rootKind, language.grammar) :: (language.grammar.shapes ++ Rule.shapes)

theorem Rule.shapes_subset (rule : Rule) : rule.grammar.shapes ⊆ Rule.shapes := by
  intro shape member
  refine List.mem_flatMap.mpr ⟨rule, ?_, member⟩
  cases rule <;> simp

/-- An error node, or a node whose parts were read by one of some shapes on the way from one reading
to another. -/
def Node.Shaped (limit : Nat) (shapes : List (Kind × Grammar)) (first last : Reading) (n : Node) :
    Prop :=
  (n.kind = .error ∧ n.children = []) ∨
    ∃ g, (n.kind, g) ∈ shapes ∧ ∃ line r next, Reads limit g line r (.nodes n.children next) ∧
      (∃ segment, first.cursor.Moves segment r.cursor) ∧ next.faults <+: last.faults

/-- Nodes with a shape and all nodes below them, too. -/
abbrev Node.AllShaped (limit : Nat) (shapes : List (Kind × Grammar)) (first last : Reading)
    (ns : List Node) : Prop :=
  ∀ n ∈ subtreesOf ns, n.Shaped limit shapes first last

section Extending

variable {limit : Nat} {known : List (Node.Kind × Grammar)} {first r next last : Reading}
  {ms ns : List Node}

theorem Node.Shaped.extend {n : Node} (shaped : n.Shaped limit known r next)
    (earlier : ∃ segment, first.cursor.Moves segment r.cursor)
    (later : next.faults <+: last.faults) : n.Shaped limit known first last := by
  rcases shaped with isError | ⟨g, shape, line, start, stop, reads, toStart, fromStop⟩
  · exact Or.inl isError
  · obtain ⟨one, toR⟩ := earlier
    obtain ⟨two, toStart⟩ := toStart
    exact Or.inr ⟨g, shape, line, start, stop, reads, ⟨one ++ two, toR.trans toStart⟩,
      fromStop.trans later⟩

theorem Node.AllShaped.nil : AllShaped limit known first last [] := by
  intro n member
  rw [subtreesOf_nil] at member
  cases member

theorem Node.AllShaped.append {g₁ g₂ : Grammar} {line₁ line₂ : Nat}
    (one : Reads limit g₁ line₁ r (.nodes ms next))
    (two : Reads limit g₂ line₂ next (.nodes ns last))
    (front : AllShaped limit known r next ms) (back : AllShaped limit known next last ns) :
    AllShaped limit known r last (ms ++ ns) := by
  refine forall_mem_subtreesOf_append.mpr ⟨?_, ?_⟩
  · intro n member
    exact (front n member).extend ⟨[], .refl _⟩ two.faults_prefix
  · intro n member
    exact (back n member).extend one.moves (List.prefix_refl _)

end Extending

namespace Reads

variable {limit line : Nat} {g : Grammar} {r : Reading}

/-- Every node that is read, and every node below it, has a shape. -/
theorem shaped {known : List (Node.Kind × Grammar)} {ns : List Node} {next : Reading}
    (rules : Rule.shapes ⊆ known) (reads : Reads limit g line r (.nodes ns next))
    (shapes : g.shapes ⊆ known) : Node.AllShaped limit known r next ns := by
  induction reads using Reads.succeeds with
  | done => exact .nil
  | take => exact .nil
  | seq one two ihOne ihTwo =>
      obtain ⟨shapesOne, shapesTwo⟩ := List.append_subset.mp shapes
      exact Node.AllShaped.append one two (ihOne shapesOne) (ihTwo shapesTwo)
  | yes _ _ ih => exact ih (List.append_subset.mp shapes).1
  | no _ _ ih => exact ih (List.append_subset.mp shapes).2
  | stop => exact .nil
  | more _ one rest ihOne ihRest =>
      exact Node.AllShaped.append one rest (ihOne shapes) (ihRest shapes)
  | @node lead cases otherwise body line r ns next more last readsLead readsBody ihLead ihBody =>
      obtain ⟨shapesNode, shapesBoth⟩ := List.append_subset.mp shapes
      obtain ⟨shapesLead, shapesBody⟩ := List.append_subset.mp shapesBoth
      have below : Node.AllShaped limit known r last (ns ++ more) :=
        Node.AllShaped.append readsLead readsBody (ihLead shapesLead) (ihBody shapesBody)
      obtain ⟨way, branch, readsWay⟩ := Grammar.branches_sound cases otherwise readsBody
      have readsParts : Reads limit (.seq lead way) line r (.nodes (ns ++ more) last) :=
        .seq readsLead readsWay
      cases picked : Grammar.pick line next.cursor otherwise cases with
      | none => exact below
      | some k =>
          refine Node.forall_mem_subtreesOf_singleton.mpr ⟨?_, below⟩
          refine Or.inr ⟨.seq lead way, shapesNode ?_, line, r, last, readsParts, ⟨[], .refl _⟩,
            List.prefix_refl _⟩
          rw [picked] at branch
          exact List.mem_filterMap.mpr ⟨_, branch, rfl⟩
  | @last g line r ns next _ ih =>
      intro n member
      exact ih shapes n (Node.subtreesOf_subset (Node.getLast?_toList_subset ns) member)
  | atLeastOne _ _ ih => exact ih shapes
  | markLine _ ih => exact ih shapes
  | intact _ ih => exact ih shapes
  | recovered =>
      exact Node.forall_mem_subtreesOf_singleton.mpr ⟨Or.inl ⟨rfl, rfl⟩, Node.AllShaped.nil⟩
  | @call rule _ _ _ _ _ ih => exact ih (List.Subset.trans rule.shapes_subset rules)

end Reads

/-- The tree of a source is read as derived, and its nodes have the shapes of its language. -/
theorem Parse.ofTokens_shaped (language : Language) (limit : Nat) {tokens : List Token}
    (ended : Token.Ended tokens) :
    ∃ last : Reading, (Parse.ofTokens language limit tokens).faults = last.faults ∧
      ∀ n ∈ (Parse.ofTokens language limit tokens).tree.subtrees,
        n.Shaped (max limit 1) language.shapes ⟨Cursor.start tokens, []⟩ last := by
  obtain ⟨ns, last, reads, _, equal⟩ := Parse.ofTokens_reads language limit ended
  rw [equal]
  refine ⟨last, rfl, Node.forall_mem_subtrees.mpr ⟨?_, ?_⟩⟩
  · exact Or.inr ⟨language.grammar, List.mem_cons_self, 0, _, last, reads, ⟨[], .refl _⟩,
      List.prefix_refl _⟩
  · refine reads.shaped ?_ ?_
    · exact List.subset_cons_of_subset _ (List.subset_append_right _ _)
    · exact List.subset_cons_of_subset _ (List.subset_append_left _ _)

/-! ## The nodes that a grammar yields -/

/-- The kinds of the nodes that a construct that contains itself yields. -/
def Rule.yields : Rule → List Node.Kind
  | .value => [.array, .object, .value]
  | .argument => []
  | .field => [.field]
  | .ruleItem => [.flowWhenCommand, .flowWhenEvent, .flowWhenPolicy, .flowWhenIf]

namespace Grammar

/-- The kinds of the nodes that a grammar can yield. -/
def yields : Grammar → List Node.Kind
  | .done => []
  | .take => []
  | .fail _ => []
  | .seq first second => first.yields ++ second.yields
  | .choose _ yes no => yes.yields ++ no.yields
  | .many _ item => item.yields
  | .node lead cases otherwise body =>
      cases.map (·.2) ++
        match otherwise with
        | some k => [k]
        | none => if alwaysPicks cases body then [] else lead.yields ++ body.yields
  | .last g => g.yields
  | .atLeastOne _ g => g.yields
  | .markLine g => g.yields
  | .recovering _ g => .error :: g.yields
  | .call rule => rule.yields

/-- Whether a grammar yields a node of a kind whenever it succeeds. -/
def ensures (k : Node.Kind) : Grammar → Bool
  | .done => false
  | .take => false
  | .fail _ => true
  | .seq first second => first.ensures k || second.ensures k
  | .choose _ yes no => yes.ensures k && no.ensures k
  | .many _ _ => false
  | .node _ cases otherwise _ => otherwise == some k && cases.all (·.2 == k)
  | .last _ => false
  | .atLeastOne _ g => g.ensures k
  | .markLine g => g.ensures k
  | .recovering _ _ => false
  | .call _ => false

/-- Whether a grammar yields at most one node of a kind. -/
def single (k : Node.Kind) : Grammar → Bool
  | .done => true
  | .take => true
  | .fail _ => true
  | .seq first second =>
      first.single k && !second.yields.contains k || !first.yields.contains k && second.single k
  | .choose _ yes no => yes.single k && no.single k
  | .many _ item => !item.yields.contains k
  | .node _ cases otherwise body => otherwise.isSome || alwaysPicks cases body
  | .last _ => true
  | .atLeastOne _ g => g.single k
  | .markLine g => g.single k
  | .recovering _ g => g.single k
  | .call rule => !rule.yields.contains k

end Grammar

theorem Rule.grammar_yields (rule : Rule) : rule.grammar.yields ⊆ rule.yields := by
  cases rule with
  | value => decide
  | argument => decide
  | field => decide
  | ruleItem => decide

namespace Reads

variable {limit line : Nat} {g : Grammar} {r next : Reading} {ns : List Node}

theorem kind_mem_yields (reads : Reads limit g line r (.nodes ns next)) :
    ∀ n ∈ ns, n.kind ∈ g.yields := by
  induction reads using Reads.succeeds with
  | done => simp
  | take => simp
  | seq _ _ ihOne ihTwo =>
      intro n member
      rcases List.mem_append.mp member with member | member
      · exact List.mem_append_left _ (ihOne n member)
      · exact List.mem_append_right _ (ihTwo n member)
  | yes _ _ ih => exact fun n member => List.mem_append_left _ (ih n member)
  | no _ _ ih => exact fun n member => List.mem_append_right _ (ih n member)
  | stop => simp
  | more _ _ _ ihOne ihRest => exact List.forall_mem_append.mpr ⟨ihOne, ihRest⟩
  | @node lead cases otherwise body line r ns next more last readsLead readsBody ihLead ihBody =>
      intro n member
      rcases Grammar.pick_eq_or next.cursor with same | ⟨k, picked, equal⟩
      · rw [same] at member
        refine List.mem_append_right _ ?_
        cases otherwise with
        | some k =>
            rw [List.mem_singleton.mp member]
            exact List.mem_cons_self
        | none =>
            have never := Grammar.alwaysPicks_eq_false readsBody same
            simp only [never, Bool.false_eq_true, if_false]
            rcases List.mem_append.mp member with member | member
            · exact List.mem_append_left _ (ihLead n member)
            · exact List.mem_append_right _ (ihBody n member)
      · rw [equal] at member
        rw [List.mem_singleton.mp member]
        exact List.mem_append_left _ picked
  | @last g line r ns next _ ih =>
      exact fun n member => ih n (Node.getLast?_toList_subset ns member)
  | atLeastOne _ _ ih => exact ih
  | markLine _ ih => exact ih
  | intact _ ih => exact fun n member => List.mem_cons_of_mem _ (ih n member)
  | recovered =>
      intro n member
      rw [List.mem_singleton.mp member]
      exact List.mem_cons_self
  | @call rule _ _ _ _ _ ih => exact fun n member => rule.grammar_yields (ih n member)

theorem exists_of_ensures {k : Node.Kind} (reads : Reads limit g line r (.nodes ns next))
    (ensures : g.ensures k = true) : ∃ n ∈ ns, n.kind = k := by
  induction reads using Reads.succeeds with
  | done => cases ensures
  | take => cases ensures
  | seq _ _ ihOne ihTwo =>
      rcases Bool.or_eq_true_iff.mp ensures with ensures | ensures
      · obtain ⟨n, member, equal⟩ := ihOne ensures
        exact ⟨n, List.mem_append_left _ member, equal⟩
      · obtain ⟨n, member, equal⟩ := ihTwo ensures
        exact ⟨n, List.mem_append_right _ member, equal⟩
  | yes _ _ ih => exact ih (Bool.and_eq_true_iff.mp ensures).1
  | no _ _ ih => exact ih (Bool.and_eq_true_iff.mp ensures).2
  | stop => cases ensures
  | more => cases ensures
  | @node lead cases otherwise body line r ns next more last _ _ _ _ =>
      obtain ⟨last, all⟩ := Bool.and_eq_true_iff.mp ensures
      have picked : Grammar.pick line next.cursor otherwise cases = some k := by
        rcases Grammar.pick_eq_or next.cursor with same | ⟨k', member, equal⟩
        · rw [same]
          exact beq_iff_eq.mp last
        · obtain ⟨way, inCases, rfl⟩ := List.mem_map.mp member
          rw [equal, beq_iff_eq.mp (List.all_eq_true.mp all way inCases)]
      rw [picked]
      exact ⟨_, List.mem_cons_self, rfl⟩
  | last => cases ensures
  | atLeastOne _ _ ih => exact ih ensures
  | markLine _ ih => exact ih ensures
  | intact => cases ensures
  | recovered => cases ensures
  | call => cases ensures

theorem countP_eq_zero {k : Node.Kind} (reads : Reads limit g line r (.nodes ns next))
    (never : (!g.yields.contains k) = true) : ns.countP (·.kind == k) = 0 := by
  rw [List.countP_eq_zero]
  intro n member isKind
  have known := reads.kind_mem_yields n member
  rw [beq_iff_eq.mp isKind] at known
  simp [known] at never

theorem countP_le_one {k : Node.Kind} (reads : Reads limit g line r (.nodes ns next))
    (single : g.single k = true) : ns.countP (·.kind == k) ≤ 1 := by
  induction reads using Reads.succeeds with
  | done => exact Nat.zero_le _
  | take => exact Nat.zero_le _
  | seq one two ihOne ihTwo =>
      rw [List.countP_append]
      rcases Bool.or_eq_true_iff.mp single with first | second
      · obtain ⟨singleOne, neverTwo⟩ := Bool.and_eq_true_iff.mp first
        have := ihOne singleOne
        have := two.countP_eq_zero neverTwo
        omega
      · obtain ⟨neverOne, singleTwo⟩ := Bool.and_eq_true_iff.mp second
        have := one.countP_eq_zero neverOne
        have := ihTwo singleTwo
        omega
  | yes _ _ ih => exact ih (Bool.and_eq_true_iff.mp single).1
  | no _ _ ih => exact ih (Bool.and_eq_true_iff.mp single).2
  | stop => exact Nat.zero_le _
  | more _ one rest _ _ =>
      rw [List.countP_append, one.countP_eq_zero single, rest.countP_eq_zero single]
      exact Nat.zero_le _
  | @node lead cases otherwise body line r ns next more last _ readsBody _ _ =>
      -- the parts are wrapped into one node, whatever its kind is
      have picked : (Grammar.pick line next.cursor otherwise cases).isSome = true := by
        rcases Bool.or_eq_true_iff.mp single with other | always
        · rcases Grammar.pick_eq_or next.cursor with same | ⟨_, _, equal⟩
          · rw [same]
            exact other
          · rw [equal]
            rfl
        · exact Grammar.pick_isSome_of_alwaysPicks always readsBody
      obtain ⟨kind, equal⟩ := Option.isSome_iff_exists.mp picked
      rw [equal]
      exact List.countP_le_length
  | @last g line r ns next _ _ =>
      refine Nat.le_trans List.countP_le_length ?_
      cases ns.getLast? <;> simp
  | atLeastOne _ _ ih => exact ih single
  | markLine _ ih => exact ih single
  | intact _ ih => exact ih single
  | recovered => exact List.countP_le_length
  | @call rule line r _ _ reads _ =>
      have called : Reads limit (.call rule) line r _ := .call reads
      rw [called.countP_eq_zero single]
      exact Nat.zero_le _

end Reads

/-! ## What nodes are made of -/

/-- The kinds of the parts that a node of a kind always has, such as its name. -/
def Node.Kind.needs : Node.Kind → List Node.Kind
  | .entity => [.entityName]
  | .enum => [.enumName]
  | .enumValue => [.enumValueName]
  | .relationships => [.relationshipType]
  | .relationship => [.relationshipFrom, .relationshipTo]
  | .relationshipFrom | .relationshipTo => [.relationshipDefinition]
  | .relationshipDefinition => [.relationshipEntityName]
  | .service | .serviceLegacy => [.serviceName, .serviceAggregates]
  | .serviceMethod => [.serviceMethodName]
  | .event => [.eventName]
  | .input => [.inputName]
  | .field => [.fieldName, .fieldType]
  | .flow => [.flowName]
  | .flowSystem => [.flowSystemName]
  | .flowStart => [.flowStartName]
  | .flowWhen => [.flowWhenTrigger]
  | _ => []

/-- The kinds of the parts that a node of a kind can have in a language. -/
def Language.parts (language : Language) (k : Node.Kind) : List Node.Kind :=
  language.shapes.flatMap fun shape => if shape.1 = k then shape.2.yields else []

theorem Language.shapes_ensure (language : Language) :
    (language.shapes.all fun shape => shape.1.needs.all fun k => shape.2.ensures k) = true := by
  cases language with
  | entity => decide
  | flow => decide

theorem Language.shapes_below_root (language : Language) :
    (language.shapes.all fun shape => !shape.2.yields.contains language.rootKind) = true := by
  cases language with
  | entity => decide
  | flow => decide

theorem Language.rootKind_not_mem_parts (language : Language) (k : Node.Kind) :
    language.rootKind ∉ language.parts k := by
  intro member
  obtain ⟨shape, among, yields⟩ := List.mem_flatMap.mp member
  have below := List.all_eq_true.mp language.shapes_below_root shape among
  split at yields
  · simp [yields] at below
  · cases yields

namespace Node.Shaped

variable {limit : Nat} {language : Language} {first last : Reading} {n : Node} {k : Kind}

theorem hasChild (shaped : n.Shaped limit language.shapes first last) (needed : k ∈ n.kind.needs) :
    n.hasChild k = true := by
  rcases shaped with ⟨isError, _⟩ | ⟨g, shape, line, r, next, reads, _⟩
  · rw [isError] at needed
    cases needed
  · have ensures := List.all_eq_true.mp language.shapes_ensure _ shape
    obtain ⟨part, member, equal⟩ := reads.exists_of_ensures (List.all_eq_true.mp ensures k needed)
    refine List.find?_isSome.mpr ⟨part, member, ?_⟩
    exact beq_iff_eq.mpr equal

theorem kind_mem_parts (shaped : n.Shaped limit language.shapes first last) :
    ∀ part ∈ n.children, part.kind ∈ language.parts n.kind := by
  rcases shaped with ⟨_, empty⟩ | ⟨g, shape, line, r, next, reads, _⟩
  · rw [empty]
    simp
  · intro part member
    refine List.mem_flatMap.mpr ⟨_, shape, ?_⟩
    rw [if_pos rfl]
    exact reads.kind_mem_yields part member

/-- A node of a kind has at most one part of another kind if that is so in all shapes of its
kind. -/
theorem countP_le_one (shaped : n.Shaped limit language.shapes first last)
    (single : (language.shapes.all fun shape => shape.1 != n.kind || shape.2.single k) = true) :
    n.children.countP (·.kind == k) ≤ 1 := by
  rcases shaped with ⟨_, empty⟩ | ⟨g, shape, line, r, next, reads, _⟩
  · rw [empty]
    exact Nat.zero_le _
  · rcases Bool.or_eq_true_iff.mp (List.all_eq_true.mp single _ shape) with other | single
    · simp at other
    · exact reads.countP_le_one single

end Node.Shaped

/-- Only the root is of the kind of a root. -/
theorem Parse.kind_ne_rootKind (language : Language) (limit : Nat) {tokens : List Token}
    (ended : Token.Ended tokens) {n : Node}
    (below : n ∈ Node.subtreesOf (Parse.ofTokens language limit tokens).tree.children) :
    n.kind ≠ language.rootKind := by
  obtain ⟨last, _, shaped⟩ := Parse.ofTokens_shaped language limit ended
  have isPart : ∃ k, n.kind ∈ language.parts k := by
    rcases Node.mem_subtreesOf_cases _ below with child | ⟨parent, inner, child⟩
    · exact ⟨_, (shaped _ (Node.self_mem_subtrees _)).kind_mem_parts n child⟩
    · exact ⟨_, (shaped parent (Node.mem_subtrees_of_below inner)).kind_mem_parts n child⟩
  intro root
  obtain ⟨k, isPart⟩ := isPart
  rw [root] at isPart
  exact language.rootKind_not_mem_parts k isPart

end EntityFlow
