import Mathlib.Tactic.TFAE
import EntityFlow.Proofs.Document.Omissions
import EntityFlow.Proofs.Grammar.Errors
import EntityFlow.Proofs.Token.Order

/-!
# Strict compilation

A source is accepted by strict compilation if and only if it keeps to the grammar
(`compile_strict_iff`). Two things could come between: an error node that no part of a document
reports, and a diagnostic for a construct that the grammar accepts. The first is caught by the
faults, as a fault in no range becomes a diagnostic of its own; the second does not exist, because
the nodes of a tree without errors have all that a document asks for (`Node.Whole`).
-/

namespace EntityFlow

/-! ## Trees without errors -/

/-- A node that is no error node and has the parts that a node of its kind needs, and only parts
that it may have in a language. -/
structure Node.Regular (language : Language) (n : Node) : Prop where
  proper : n.kind ≠ .error
  needs : ∀ k ∈ n.kind.needs, n.hasChild k = true
  parts : ∀ part ∈ n.children, part.kind ∈ language.parts n.kind

/-- A regular node with regular parts, down to the last one. -/
def Node.Whole (language : Language) (n : Node) : Prop := ∀ m ∈ n.subtrees, m.Regular language

namespace Node.Whole

variable {language : Language} {n : Node} {k : Kind}

theorem regular (whole : n.Whole language) : n.Regular language := whole n n.self_mem_subtrees

theorem part (whole : n.Whole language) {part : Node} (member : part ∈ n.children) :
    part.Whole language :=
  Everywhere.part whole member

/-- A part that a node needs is found. -/
theorem exists_child (whole : n.Whole language) (needed : k ∈ n.kind.needs) :
    ∃ part, n.child k = some part :=
  Option.isSome_iff_exists.mp (whole.regular.needs k needed)

theorem ofError_eq_nil (whole : n.Whole language) (context : Context) :
    Omission.ofError context n = [] :=
  Omission.ofError_eq_nil context whole.regular.proper

/-- Where nothing is left out of the parts one by one, nothing is left out of them all. -/
theorem flatMap_eq_nil (whole : n.Whole language) {omitted : Node → List Omission}
    (each : ∀ part ∈ n.children, part.Whole language → omitted part = []) :
    n.children.flatMap omitted = [] := by
  refine List.flatMap_eq_nil_iff.mpr ?_
  intro part member
  exact each part member (whole.part member)

theorem omitted_errors (whole : n.Whole language) (context : Context) :
    n.children.flatMap (Omission.ofError context) = [] :=
  whole.flatMap_eq_nil fun _ _ wholePart => wholePart.ofError_eq_nil context

end Node.Whole

section Documents

variable {language : Language}

namespace EntityBuilder

mutual

theorem omittedInField_of_whole : (n : Node) → n.Whole language → omittedInField n = []
  | ⟨k, text, span, parts⟩, whole => by
      rw [omittedInField]
      exact omittedInEmbedded_of_whole parts fun part member => whole.part member

theorem omittedInEmbedded_of_whole :
    (parts : List Node) → (∀ n ∈ parts, n.Whole language) → omittedInEmbedded parts = []
  | [], _ => by rw [omittedInEmbedded]
  | ⟨k, text, span, body⟩ :: rest, whole => by
      by_cases nested : k = .nestedField
      · subst nested
        rw [omittedInEmbedded]
        exact omittedInFields_of_whole body fun part member =>
          (whole _ List.mem_cons_self).part member
      · rw [omittedInEmbedded]
        · exact omittedInEmbedded_of_whole rest fun n member =>
            whole n (List.mem_cons_of_mem _ member)
        · simp [nested]

theorem omittedInFields_of_whole :
    (ns : List Node) → (∀ n ∈ ns, n.Whole language) → omittedInFields ns = []
  | [], _ => by rw [omittedInFields]
  | n :: rest, whole => by
      have first := whole n List.mem_cons_self
      rw [omittedInFields,
        omittedInFields_of_whole rest fun n member => whole n (List.mem_cons_of_mem _ member),
        List.append_nil]
      cases known : n.kind with
      | field => exact omittedInField_of_whole n first
      | error => exact absurd known first.regular.proper
      | _ => rfl

end

theorem omittedInEntity_of_whole {n : Node} (whole : n.Whole language) {nameKind : Node.Kind}
    (part : Section) (needed : nameKind ∈ n.kind.needs) : omittedInEntity n part nameKind = [] := by
  obtain ⟨name, found⟩ := whole.exists_child needed
  unfold omittedInEntity
  rw [found]
  exact omittedInFields_of_whole n.children fun part member => whole.part member

theorem omittedInEnum_of_whole {n : Node} (whole : n.Whole language)
    (needed : .enumName ∈ n.kind.needs) : omittedInEnum n = [] := by
  obtain ⟨name, found⟩ := whole.exists_child needed
  unfold omittedInEnum
  rw [found]
  exact whole.omitted_errors .enum

theorem omittedInRelationships_of_whole {n : Node} (whole : n.Whole language) :
    n.children.flatMap omittedInRelationships = [] := by
  refine whole.flatMap_eq_nil ?_
  intro part _ wholePart
  unfold omittedInRelationships
  cases known : part.kind with
  | relationship =>
      have needs := wholePart.regular.needs
      rw [known] at needs
      have source := needs .relationshipFrom (by decide)
      have target := needs .relationshipTo (by decide)
      simp [source, target]
  | _ => exact wholePart.ofError_eq_nil _

theorem omittedInService_of_whole {n : Node} (whole : n.Whole language)
    (needed : .serviceName ∈ n.kind.needs) : omittedInService n = [] := by
  obtain ⟨name, found⟩ := whole.exists_child needed
  unfold omittedInService
  rw [found]
  refine List.append_eq_nil_iff.mpr ⟨?_, whole.omitted_errors .service⟩
  refine List.flatMap_eq_nil_iff.mpr ?_
  intro method member
  have wholeMethod := whole.part (List.mem_filter.mp member).1
  unfold omittedInMethod
  split
  · rfl
  · exact wholeMethod.omitted_errors .method

theorem omittedInTopLevel_of_whole {n : Node} (whole : n.Whole language)
    (known : n.kind ∈ Language.entity.parts .zdl) : omittedInTopLevel n = [] := by
  have top : n.kind ∈ [Node.Kind.globalJavadoc, .error, .legacyConstant, .error, .entity, .enum,
      .relationships, .service, .serviceLegacy, .event, .input] := known
  unfold omittedInTopLevel
  cases kind : n.kind with
  | globalJavadoc => rfl
  | legacyConstant => rfl
  | entity => exact omittedInEntity_of_whole whole .entities (by rw [kind]; decide)
  | event => exact omittedInEntity_of_whole whole .events (by rw [kind]; decide)
  | input => exact omittedInEntity_of_whole whole .inputs (by rw [kind]; decide)
  | enum => exact omittedInEnum_of_whole whole (by rw [kind]; decide)
  | relationships => exact omittedInRelationships_of_whole whole
  | service => exact omittedInService_of_whole whole (by rw [kind]; decide)
  | serviceLegacy => exact omittedInService_of_whole whole (by rw [kind]; decide)
  | error => exact absurd kind whole.regular.proper
  | _ =>
      rw [kind] at top
      exact absurd top (by decide)

end EntityBuilder

namespace FlowBuilder

mutual

theorem omittedInRulePart_of_whole : (n : Node) → n.Whole language → omittedInRulePart n = []
  | ⟨k, text, span, parts⟩, whole => by
      have inside := omittedInRule_of_whole parts fun part member => whole.part member
      cases k with
      | flowWhenIf => rw [omittedInRulePart, inside]
      | flowWhenElseIf => rw [omittedInRulePart, inside]
      | flowWhenElse => rw [omittedInRulePart, inside]
      | _ => rw [omittedInRulePart] <;> first | exact whole.ofError_eq_nil _ | simp

theorem omittedInRule_of_whole :
    (ns : List Node) → (∀ n ∈ ns, n.Whole language) → omittedInRule ns = []
  | [], _ => by rw [omittedInRule]
  | n :: rest, whole => by
      rw [omittedInRule, omittedInRulePart_of_whole n (whole n List.mem_cons_self),
        omittedInRule_of_whole rest fun n member => whole n (List.mem_cons_of_mem _ member)]
      rfl

end

theorem omittedInSystem_of_whole {n : Node} (whole : n.Whole language) :
    omittedInSystem n = [] := by
  unfold omittedInSystem
  split
  · exact whole.omitted_errors .service
  · exact whole.ofError_eq_nil _

theorem omittedInSystems_of_whole {n : Node} (whole : n.Whole language) :
    omittedInSystems n = [] := by
  unfold omittedInSystems
  split
  · split
    · rfl
    · exact whole.flatMap_eq_nil fun _ _ wholePart => omittedInSystem_of_whole wholePart
  · exact whole.ofError_eq_nil _

theorem omittedInFlow_of_whole {n : Node} (whole : n.Whole language) : omittedInFlow n = [] := by
  unfold omittedInFlow
  split
  · exact whole.flatMap_eq_nil fun _ _ wholePart => omittedInSystems_of_whole wholePart
  · unfold omittedInStart
    split
    · rfl
    · exact whole.omitted_errors .start
  · exact omittedInRule_of_whole n.children fun part member => whole.part member
  · exact whole.omitted_errors .ends
  · exact whole.ofError_eq_nil _

theorem omittedInTopLevel_of_whole {n : Node} (whole : n.Whole .flow)
    (known : n.kind ∈ Language.flow.parts .zfl) : omittedInTopLevel n = [] := by
  have top : n.kind ∈ [Node.Kind.globalJavadoc, .error, .importDecl, .config, .flow] := known
  unfold omittedInTopLevel
  cases kind : n.kind with
  | globalJavadoc => rfl
  | importDecl => rfl
  | config =>
      refine whole.flatMap_eq_nil ?_
      intro part member wholePart
      have option := whole.regular.parts part member
      rw [kind] at option
      have either : part.kind ∈ [Node.Kind.error, .configOption] := option
      simp only [List.mem_cons, List.not_mem_nil, or_false] at either
      unfold omittedInConfig
      rw [either.resolve_left wholePart.regular.proper]
  | flow =>
      obtain ⟨name, found⟩ := whole.exists_child (k := .flowName) (by rw [kind]; decide)
      simp only [found]
      exact whole.flatMap_eq_nil fun _ _ wholePart => omittedInFlow_of_whole wholePart
  | error => exact absurd kind whole.regular.proper
  | _ =>
      rw [kind] at top
      exact absurd top (by decide)

end FlowBuilder

/-- The document of a whole tree leaves nothing out. -/
theorem Model.diagnostics_ofTree_of_whole {tree : Node} (whole : tree.Whole language)
    (root : tree.kind = language.rootKind) : (Model.ofTree language tree).diagnostics = [] := by
  have parts := whole.regular.parts
  rw [root] at parts
  cases language with
  | entity =>
      show (EntityBuilder.ofTree tree).diagnostics = []
      rw [EntityBuilder.diagnostics_ofTree, List.map_eq_nil_iff]
      exact whole.flatMap_eq_nil fun part member wholePart =>
        EntityBuilder.omittedInTopLevel_of_whole wholePart (parts part member)
  | flow =>
      show (FlowBuilder.ofTree tree).diagnostics = []
      rw [FlowBuilder.diagnostics_ofTree, List.map_eq_nil_iff]
      exact whole.flatMap_eq_nil fun part member wholePart =>
        FlowBuilder.omittedInTopLevel_of_whole wholePart (parts part member)

end Documents

/-! ## Faults in diagnostics -/

/-- Nothing is reported if and only if nothing is left out and there are no remarks. -/
theorem explain_eq_nil_iff {remarks : List Remark} {diagnostics : List Diagnostic} :
    explain remarks diagnostics = [] ↔ remarks = [] ∧ diagnostics = [] := by
  unfold explain
  constructor
  · intro none
    obtain ⟨explained, more⟩ := List.append_eq_nil_iff.mp none
    have nothing : diagnostics = [] := List.map_eq_nil_iff.mp explained
    rw [nothing] at more
    cases remarks with
    | nil => exact ⟨rfl, nothing⟩
    | cons remark rest => simp at more
  · rintro ⟨rfl, rfl⟩
    rfl

/-- The tree of a source without faults is whole. -/
theorem Parse.ofTokens_whole (language : Language) (limit : Nat) {tokens : List Token}
    (ended : Token.Ended tokens) (faultless : (Parse.ofTokens language limit tokens).faults = []) :
    (Parse.ofTokens language limit tokens).tree.Whole language := by
  intro n member
  obtain ⟨_, _, shaped⟩ := Parse.ofTokens_shaped language limit ended
  have shape := shaped n member
  exact ⟨(Parse.ofTokens_faults_eq_nil_iff language limit ended).mp faultless n member,
    fun k needed => shape.hasChild needed, shape.kind_mem_parts⟩

theorem Parse.model_diagnostics_eq_nil_iff (language : Language) (limit : Nat)
    {tokens : List Token} (ended : Token.Ended tokens) :
    ((Parse.ofTokens language limit tokens).model language).diagnostics = [] ↔
      (Parse.ofTokens language limit tokens).faults = [] := by
  refine explain_eq_nil_iff.trans ?_
  rw [List.map_eq_nil_iff]
  refine ⟨And.left, ?_⟩
  intro faultless
  have whole := Parse.ofTokens_whole language limit ended faultless
  exact ⟨faultless, Model.diagnostics_ofTree_of_whole whole rfl⟩

/-! ## Compilation -/

theorem compile_plain {source : String} {tokens : List Token}
    (lexed : Token.lex source = .ok tokens) (language : Language) (limit : Nat) :
    compile language ⟨false, limit⟩ source =
      .ok ((Parse.ofTokens language limit tokens).model language) := by
  unfold compile
  rw [Parse.ofSource?_of_lex lexed]
  rfl

theorem compile_strict {source : String} {tokens : List Token}
    (lexed : Token.lex source = .ok tokens) (language : Language) (limit : Nat) :
    compile language ⟨true, limit⟩ source =
      let model := (Parse.ofTokens language limit tokens).model language
      if model.diagnostics = [] then .ok model else .error (.strict model.diagnostics) := by
  unfold compile
  rw [Parse.ofSource?_of_lex lexed]
  simp only [Bool.true_and]
  split
  · rename_i some
    rw [if_neg (by simpa using some)]
  · rename_i none
    rw [if_pos (by simpa using none)]

/-- Strict compilation accepts the sources without faults. -/
theorem compile_strict_accepts_iff {source : String} {tokens : List Token}
    (lexed : Token.lex source = .ok tokens) (language : Language) (limit : Nat) :
    (∃ m, compile language ⟨true, limit⟩ source = .ok m) ↔
      (Parse.ofTokens language limit tokens).faults = [] := by
  have ended := (Token.lex_inOrder lexed).ended
  rw [← Parse.model_diagnostics_eq_nil_iff language limit ended,
    compile_strict lexed language limit]
  dsimp only
  split
  · rename_i none
    exact ⟨fun _ => none, fun _ => ⟨_, rfl⟩⟩
  · rename_i some
    refine ⟨?_, fun none => absurd none some⟩
    rintro ⟨_, failed⟩
    cases failed

/-- For a source that can be cut into tokens it is the same that strict compilation accepts it, that
no fault is recorded, that its tree has no error node, and that its model has no diagnostics. Strict
compilation then gives that model, and else it fails with the diagnostics of the model. -/
theorem compile_strict_iff (language : Language) (limit : Nat) {source : String}
    {tokens : List Token} (lexed : Token.lex source = .ok tokens) :
    ∃ p m, Parse.ofSource? language limit source = .ok p ∧
      compile language ⟨false, limit⟩ source = .ok m ∧
      List.TFAE [
        ∃ m', compile language ⟨true, limit⟩ source = .ok m',
        p.faults = [],
        ∀ n ∈ p.tree.subtrees, n.kind ≠ .error,
        m.diagnostics = []] ∧
      compile language ⟨true, limit⟩ source =
        if m.diagnostics = [] then .ok m else .error (.strict m.diagnostics) := by
  have ended := (Token.lex_inOrder lexed).ended
  refine ⟨_, _, Parse.ofSource?_of_lex lexed language limit, compile_plain lexed language limit, ?_,
    compile_strict lexed language limit⟩
  have faultless := Parse.model_diagnostics_eq_nil_iff language limit ended
  have clean := Parse.ofTokens_faults_eq_nil_iff language limit ended
  tfae_have 1 ↔ 2 := compile_strict_accepts_iff lexed language limit
  tfae_have 2 ↔ 3 := clean
  tfae_have 4 ↔ 2 := faultless
  tfae_finish

/-- A source that does not keep to the grammar. -/
theorem compile_strict_iff_flow :
    ∃ p m, Parse.ofSource? .flow 0 "flow F \x7b wen a b \x7d" = .ok p ∧
      compile .flow ⟨false, 0⟩ "flow F \x7b wen a b \x7d" = .ok m ∧
      List.TFAE [
        ∃ m', compile .flow ⟨true, 0⟩ "flow F \x7b wen a b \x7d" = .ok m',
        p.faults = [],
        ∀ n ∈ p.tree.subtrees, n.kind ≠ .error,
        m.diagnostics = []] ∧
      compile .flow ⟨true, 0⟩ "flow F \x7b wen a b \x7d" =
        if m.diagnostics = [] then .ok m else .error (.strict m.diagnostics) := by
  obtain ⟨tokens, lexed⟩ : ∃ tokens, Token.lex "flow F \x7b wen a b \x7d" = .ok tokens :=
    Token.exists_of_isOk (by decide +kernel)
  exact compile_strict_iff .flow 0 lexed

end EntityFlow
