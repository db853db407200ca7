import Mathlib.Data.List.Perm.Basic
import EntityFlow.Proofs.Document.Omissions
import EntityFlow.Proofs.Grammar.Shapes
import EntityFlow.Proofs.Token.Order

/-!
# Reports of error nodes

The diagnostics of an entity document are the error nodes of its tree, each reported once with its
own range and text (`EntityBuilder.diagnostics_perm_errors`). There are two sides to this. An error
node can only stand where the builder looks for one: `Node.Kind.breakable` lists these places, and
the shapes of the language keep to the list (`Language.shapes_breakable`). And the builder leaves
out nothing else, because every node has the parts that it is asked for.

The diagnostics are in the order of the source except in services, where the broken parts of the
methods come before the broken methods.
-/

namespace EntityFlow

/-! ## Where error nodes stand -/

namespace Node

/-- The kinds of the parts of a node of a kind that are error nodes or have some below them. -/
def Kind.breakable : Kind → List Kind
  | .zdl => [.error, .entity, .event, .input, .enum, .relationships, .service]
  | .entity | .event | .input | .nestedField => [.error, .field]
  | .field => [.nestedField]
  | .enum | .relationships | .serviceMethod => [.error]
  | .service => [.error, .serviceMethod]
  | .flowWhenIf => [.error, .flowWhenIf, .flowWhenElseIf, .flowWhenElse]
  | .flowWhenElseIf | .flowWhenElse => [.error, .flowWhenIf]
  | _ => []

/-- Whether a node of a kind is no error node and has none below it. -/
def Kind.plain (k : Kind) : Bool := k != .error && k.breakable.isEmpty

/-- The error nodes among some nodes and the nodes below them. -/
def errorsOf (ns : List Node) : List Node := (subtreesOf ns).filter (·.kind == .error)

@[simp] theorem errorsOf_nil : errorsOf [] = [] := by
  rw [errorsOf, subtreesOf_nil, List.filter_nil]

theorem errorsOf_append (ms ns : List Node) : errorsOf (ms ++ ns) = errorsOf ms ++ errorsOf ns := by
  rw [errorsOf, subtreesOf_append, List.filter_append]
  rfl

theorem errorsOf_singleton (n : Node) :
    errorsOf [n] = if n.kind = .error then n :: errorsOf n.children else errorsOf n.children := by
  rw [errorsOf, subtreesOf_cons, subtreesOf_nil, List.append_nil, subtrees_eq, List.filter_cons]
  simp only [beq_iff_eq]
  rfl

end Node

/-- Parts of a kind that can hold error nodes stand only where the builder looks for them. -/
theorem Language.shapes_breakable :
    (Language.entity.shapes.all fun shape =>
      shape.2.yields.all fun k => shape.1.breakable.contains k || k.plain) = true := by
  decide +kernel

theorem Language.shapes_single_nestedField :
    (Language.entity.shapes.all fun shape =>
      shape.1 != .field || shape.2.single .nestedField) = true := by
  decide +kernel

/-! ## Reported nodes -/

namespace Omission

/-- That the nodes left out are the error nodes among some nodes and below them, each once. -/
def Accounts (os : List Omission) (ns : List Node) : Prop :=
  (os.map (·.node)).Perm (Node.errorsOf ns)

namespace Accounts

variable {os os' : List Omission} {n : Node} {ns : List Node}

theorem nil : Accounts [] [] := by
  unfold Accounts
  rw [Node.errorsOf_nil, List.map_nil]

theorem cons (first : Accounts os [n]) (rest : Accounts os' ns) :
    Accounts (os ++ os') (n :: ns) := by
  unfold Accounts
  rw [List.map_append, ← List.singleton_append, Node.errorsOf_append]
  exact first.append rest

/-- What is left out of some nodes one by one is left out of them all. -/
theorem flatMap {omitted : Node → List Omission} (each : ∀ n ∈ ns, Accounts (omitted n) [n]) :
    Accounts (ns.flatMap omitted) ns := by
  induction ns with
  | nil => exact nil
  | cons n rest ih =>
      obtain ⟨first, others⟩ := List.forall_mem_cons.mp each
      exact first.cons (ih others)

/-- No error node stands among nodes that have none. -/
theorem of_each (each : ∀ n ∈ ns, Accounts [] [n]) : Accounts [] ns := by
  have none : Accounts (ns.flatMap fun _ => []) ns := Accounts.flatMap each
  rwa [List.flatMap_eq_nil_iff.mpr fun _ _ => rfl] at none

theorem of_children (proper : n.kind ≠ .error) (below : Accounts os n.children) :
    Accounts os [n] := by
  unfold Accounts
  rw [Node.errorsOf_singleton, if_neg proper]
  exact below

theorem perm (accounts : Accounts os ns) (same : os'.Perm os) : Accounts os' ns :=
  (same.map _).trans accounts

theorem mem_errorsOf (accounts : Accounts os ns) : ∀ o ∈ os, o.node ∈ Node.errorsOf ns :=
  fun _ member => accounts.subset (List.mem_map_of_mem member)

theorem kind_eq_error (accounts : Accounts os ns) : ∀ o ∈ os, o.node.kind = .error :=
  fun o member => beq_iff_eq.mp (List.mem_filter.mp (accounts.mem_errorsOf o member)).2

end Accounts

end Omission

/-! ## Parts -/

namespace Node

/-- A node of an entity tree with all nodes below it. -/
def Grown (limit : Nat) (first last : Reading) (n : Node) : Prop :=
  ∀ m ∈ n.subtrees, m.Shaped limit Language.entity.shapes first last

namespace Grown

variable {limit : Nat} {first last : Reading} {n : Node}

theorem shaped (grown : n.Grown limit first last) :
    n.Shaped limit Language.entity.shapes first last :=
  grown n n.self_mem_subtrees

theorem part (grown : n.Grown limit first last) :
    ∀ part ∈ n.children, part.Grown limit first last :=
  fun _ member => Everywhere.part grown member

/-- A part is of one of the kinds that hold error nodes there, or it holds none. -/
theorem mem_breakable_or_plain (shaped : n.Shaped limit Language.entity.shapes first last) :
    ∀ part ∈ n.children, part.kind ∈ n.kind.breakable ∨ part.kind.plain = true := by
  intro part member
  obtain ⟨shape, among, yields⟩ := List.mem_flatMap.mp (shaped.kind_mem_parts part member)
  have check := List.all_eq_true.mp Language.shapes_breakable shape among
  split at yields
  · rename_i same
    rw [← same, ← List.contains_iff_mem]
    exact Bool.or_eq_true_iff.mp (List.all_eq_true.mp check part.kind yields)
  · cases yields

/-- There is no error node in a node of a plain kind. -/
theorem accounts_plain (grown : n.Grown limit first last) (plain : n.kind.plain = true) :
    Omission.Accounts [] [n] := by
  have below : ∀ m ∈ n.subtrees, m.kind.plain = true := by
    refine forall_subtrees_of_step n plain ?_
    intro m member plainHere part isPart
    rcases mem_breakable_or_plain (grown m member) part isPart with block | plainPart
    · have empty := (Bool.and_eq_true_iff.mp plainHere).2
      rw [List.isEmpty_iff.mp empty] at block
      cases block
    · exact plainPart
  unfold Omission.Accounts errorsOf
  rw [subtreesOf_cons, subtreesOf_nil, List.append_nil, List.map_nil, List.nil_perm,
    List.filter_eq_nil_iff]
  intro m member isError
  have plainHere := below m member
  rw [beq_iff_eq.mp isError] at plainHere
  cases plainHere

theorem accounts_error (grown : n.Grown limit first last) (context : Context)
    (isError : n.kind = .error) : Omission.Accounts [⟨n, context⟩] [n] := by
  unfold Omission.Accounts
  rcases grown.shaped with ⟨_, empty⟩ | ⟨g, shape, _⟩
  · rw [errorsOf_singleton, if_pos isError, empty, errorsOf_nil]
    exact List.Perm.refl _
  · rw [isError] at shape
    exact absurd (List.mem_map_of_mem shape)
      (by decide +kernel : Kind.error ∉ Language.entity.shapes.map (·.1))

/-- Of the parts of a node without deeper blocks the error nodes are left out. -/
theorem accounts_ofError (grown : n.Grown limit first last) (context : Context)
    (flat : n.kind = .error ∨ n.kind.plain = true) :
    Omission.Accounts (Omission.ofError context n) [n] := by
  rcases flat with isError | plain
  · unfold Omission.ofError
    rw [isError]
    exact grown.accounts_error context isError
  · have proper : n.kind ≠ .error := by
      intro isError
      rw [isError] at plain
      cases plain
    rw [Omission.ofError_eq_nil context proper]
    exact grown.accounts_plain plain

/-- The error nodes of a node whose blocks hold only leaves. -/
theorem accounts_flat (grown : n.Grown limit first last) (context : Context)
    (flat : n.kind.breakable = [.error]) :
    Omission.Accounts (n.children.flatMap (Omission.ofError context)) n.children := by
  refine Omission.Accounts.flatMap ?_
  intro part member
  refine (grown.part part member).accounts_ofError context ?_
  have place := mem_breakable_or_plain grown.shaped part member
  rwa [flat, List.mem_singleton] at place

end Grown

end Node

/-! ## Declarations -/

namespace EntityBuilder

open Omission (Accounts)

variable {limit : Nat} {first last : Reading}

mutual

theorem accounts_field :
    (n : Node) → n.Grown limit first last → n.kind = .field → Accounts (omittedInField n) [n]
  | ⟨k, text, span, parts⟩, grown, known => by
      have single := grown.shaped.countP_le_one (k := .nestedField) (by
        rw [known]
        exact Language.shapes_single_nestedField)
      have places := Node.Grown.mem_breakable_or_plain grown.shaped
      rw [known] at places
      rw [omittedInField]
      have proper : k ≠ .error := by
        intro isError
        rw [isError] at known
        cases known
      refine Accounts.of_children proper ?_
      refine accounts_embedded parts grown.part single ?_
      intro part member
      simpa [Node.Kind.breakable] using places part member

theorem accounts_embedded :
    (parts : List Node) → (∀ part ∈ parts, part.Grown limit first last) →
      parts.countP (·.kind == .nestedField) ≤ 1 →
      (∀ part ∈ parts, part.kind = .nestedField ∨ part.kind.plain = true) →
      Accounts (omittedInEmbedded parts) parts
  | [], _, _, _ => by
      rw [omittedInEmbedded]
      exact Accounts.nil
  | ⟨k, text, span, body⟩ :: rest, grown, single, places => by
      obtain ⟨grownFirst, grownRest⟩ := List.forall_mem_cons.mp grown
      obtain ⟨placeFirst, placesRest⟩ := List.forall_mem_cons.mp places
      rw [List.countP_cons] at single
      by_cases nested : k = .nestedField
      · subst nested
        have inside : Accounts (omittedInFields body) [⟨.nestedField, text, span, body⟩] :=
          Accounts.of_children (by simp) (accounts_fields body grownFirst.part
            (Node.Grown.mem_breakable_or_plain grownFirst.shaped))
        -- there is no second nested body, so the rest has no error nodes
        have none : rest.countP (·.kind == .nestedField) = 0 := by simpa using single
        have outside : Accounts [] rest := by
          refine Accounts.of_each ?_
          intro part member
          have other := List.countP_eq_zero.mp none part member
          refine (grownRest part member).accounts_plain ((placesRest part member).resolve_left ?_)
          exact fun same => other (beq_iff_eq.mpr same)
        rw [omittedInEmbedded, ← List.append_nil (omittedInFields body)]
        exact inside.cons outside
      · rw [omittedInEmbedded]
        · have plain := grownFirst.accounts_plain (placeFirst.resolve_left nested)
          exact plain.cons (accounts_embedded rest grownRest (by omega) placesRest)
        · simp [nested]

theorem accounts_fields :
    (ns : List Node) → (∀ n ∈ ns, n.Grown limit first last) →
      (∀ n ∈ ns, n.kind ∈ [Node.Kind.error, .field] ∨ n.kind.plain = true) →
      Accounts (omittedInFields ns) ns
  | [], _, _ => by
      rw [omittedInFields]
      exact Accounts.nil
  | n :: rest, grown, places => by
      obtain ⟨grownFirst, grownRest⟩ := List.forall_mem_cons.mp grown
      obtain ⟨placeFirst, placesRest⟩ := List.forall_mem_cons.mp places
      rw [omittedInFields]
      refine Accounts.cons ?_ (accounts_fields rest grownRest placesRest)
      cases known : n.kind with
      | field => exact accounts_field n grownFirst known
      | error => exact grownFirst.accounts_error .fieldList known
      | _ =>
          refine grownFirst.accounts_plain (placeFirst.resolve_left ?_)
          simp [known]

end

section Declarations

variable {n : Node}

theorem accounts_entity (grown : n.Grown limit first last) {nameKind : Node.Kind} (part : Section)
    (needed : nameKind ∈ n.kind.needs) (blocks : n.kind.breakable = [.error, .field]) :
    Accounts (omittedInEntity n part nameKind) n.children := by
  obtain ⟨name, found⟩ := Option.isSome_iff_exists.mp (grown.shaped.hasChild needed)
  unfold omittedInEntity
  rw [found]
  refine accounts_fields n.children grown.part ?_
  rw [← blocks]
  exact Node.Grown.mem_breakable_or_plain grown.shaped

theorem accounts_enum (grown : n.Grown limit first last) (known : n.kind = .enum) :
    Accounts (omittedInEnum n) n.children := by
  obtain ⟨name, found⟩ := Option.isSome_iff_exists.mp
    (grown.shaped.hasChild (k := .enumName) (by rw [known]; decide))
  unfold omittedInEnum
  rw [found]
  exact grown.accounts_flat .enum (by rw [known]; rfl)

theorem omittedInRelationships_eq (shaped : n.Shaped limit Language.entity.shapes first last) :
    omittedInRelationships n = Omission.ofError .relationships n := by
  unfold omittedInRelationships
  cases known : n.kind with
  | relationship =>
      have source := shaped.hasChild (k := .relationshipFrom) (by rw [known]; decide)
      have target := shaped.hasChild (k := .relationshipTo) (by rw [known]; decide)
      simp [source, target, Omission.ofError, known]
  | _ => rfl

theorem accounts_relationships (grown : n.Grown limit first last)
    (known : n.kind = .relationships) :
    Accounts (n.children.flatMap omittedInRelationships) n.children := by
  have same : n.children.flatMap omittedInRelationships =
      n.children.flatMap (Omission.ofError .relationships) :=
    List.flatMap_congr fun part member => omittedInRelationships_eq (grown.part part member).shaped
  rw [same]
  exact grown.accounts_flat .relationships (by rw [known]; rfl)

theorem accounts_method (grown : n.Grown limit first last) (known : n.kind = .serviceMethod) :
    Accounts (omittedInMethod n) [n] := by
  obtain ⟨name, found⟩ := Option.isSome_iff_exists.mp
    (grown.shaped.hasChild (k := .serviceMethodName) (by rw [known]; decide))
  unfold omittedInMethod
  rw [found]
  refine Accounts.of_children (by simp [known]) ?_
  exact grown.accounts_flat .method (by rw [known]; rfl)

/-- The broken parts of the methods and the broken methods, in the order of the source. -/
def omittedInMethods (ns : List Node) : List Omission :=
  ns.flatMap fun n =>
    (if n.kind = .serviceMethod then omittedInMethod n else []) ++ Omission.ofError .service n

theorem omittedInMethods_perm (ns : List Node) :
    ((ns.filter (·.kind == .serviceMethod)).flatMap omittedInMethod ++
      ns.flatMap (Omission.ofError .service)).Perm (omittedInMethods ns) := by
  have each : (ns.filter (·.kind == .serviceMethod)).flatMap omittedInMethod =
      ns.flatMap fun n => if n.kind = .serviceMethod then omittedInMethod n else [] := by
    induction ns with
    | nil => rfl
    | cons n rest ih => by_cases method : n.kind = .serviceMethod <;> simp [method, ih]
  rw [each]
  exact List.flatMap_append_perm ns _ _

theorem accounts_service (grown : n.Grown limit first last)
    (known : n.kind = .service ∨ n.kind = .serviceLegacy) :
    Accounts (omittedInService n) n.children := by
  obtain ⟨name, found⟩ := Option.isSome_iff_exists.mp
    (grown.shaped.hasChild (k := .serviceName) (by rcases known with known | known <;>
      (rw [known]; decide)))
  unfold omittedInService
  rw [found]
  refine Accounts.perm ?_ (omittedInMethods_perm n.children)
  refine Accounts.flatMap ?_
  intro part member
  have grownPart := grown.part part member
  have place : part.kind ∈ [Node.Kind.error, .serviceMethod] ∨ part.kind.plain = true := by
    refine (Node.Grown.mem_breakable_or_plain grown.shaped part member).imp_left ?_
    intro block
    rcases known with known | known
    · rwa [known] at block
    · rw [known] at block
      cases block
  by_cases method : part.kind = .serviceMethod
  · rw [if_pos method, Omission.ofError_eq_nil _ (by simp [method]), List.append_nil]
    exact accounts_method grownPart method
  · rw [if_neg method, List.nil_append]
    refine grownPart.accounts_ofError .service (place.imp_left ?_)
    simp [method]

theorem accounts_topLevel (grown : n.Grown limit first last)
    (known : n.kind ∈ Language.entity.parts .zdl) : Accounts (omittedInTopLevel n) [n] := by
  have top : n.kind ∈ [Node.Kind.globalJavadoc, .error, .legacyConstant, .error, .entity, .enum,
      .relationships, .service, .serviceLegacy, .event, .input] := known
  unfold omittedInTopLevel
  cases kind : n.kind with
  | globalJavadoc => exact grown.accounts_plain (by rw [kind]; rfl)
  | legacyConstant => exact grown.accounts_plain (by rw [kind]; rfl)
  | error => exact grown.accounts_error .document kind
  | entity =>
      exact Accounts.of_children (by simp [kind])
        (accounts_entity grown .entities (by rw [kind]; decide) (by rw [kind]; rfl))
  | event =>
      exact Accounts.of_children (by simp [kind])
        (accounts_entity grown .events (by rw [kind]; decide) (by rw [kind]; rfl))
  | input =>
      exact Accounts.of_children (by simp [kind])
        (accounts_entity grown .inputs (by rw [kind]; decide) (by rw [kind]; rfl))
  | enum => exact Accounts.of_children (by simp [kind]) (accounts_enum grown kind)
  | relationships => exact Accounts.of_children (by simp [kind]) (accounts_relationships grown kind)
  | service => exact Accounts.of_children (by simp [kind]) (accounts_service grown (Or.inl kind))
  | serviceLegacy =>
      exact Accounts.of_children (by simp [kind]) (accounts_service grown (Or.inr kind))
  | _ =>
      rw [kind] at top
      exact absurd top (by decide)

end Declarations

/-- What a document leaves out are the error nodes of its tree. -/
theorem accounts_omissions {tree : Node} (grown : tree.Grown limit first last)
    (root : tree.kind = .zdl) : Accounts (omissions tree) [tree] := by
  refine Accounts.of_children (by simp [root]) (Accounts.flatMap ?_)
  intro n member
  refine accounts_topLevel (grown.part n member) ?_
  have parts := grown.shaped.kind_mem_parts n member
  rwa [root] at parts

end EntityBuilder

/-! ## Diagnostics -/

/-- The diagnostic of an error node. -/
theorem Diagnostic.ofNode_error {n : Node} (context : Context) (isError : n.kind = .error) :
    ofNode n context = ⟨n.span.line, n.span.column, n.span.endLine, n.span.endColumn,
      .unrecognized context, n.text⟩ := by
  unfold ofNode
  rw [if_pos isError]

/-- The document of a source that can be cut into tokens reports the error nodes of its tree, each
once, as unrecognized input with its range and text, and nothing else. -/
theorem EntityBuilder.diagnostics_perm_errors (limit : Nat) {source : String} {tokens : List Token}
    (lexed : Token.lex source = .ok tokens) :
    ∃ p, Parse.ofSource? .entity limit source = .ok p ∧
      ∃ reported : List Omission,
        (reported.map (·.node)).Perm (p.tree.subtrees.filter (·.kind == .error)) ∧
        (Model.ofEntityTree p.tree).diagnostics = reported.map fun o =>
          ⟨o.node.span.line, o.node.span.column, o.node.span.endLine, o.node.span.endColumn,
            .unrecognized o.context, o.node.text⟩ := by
  have ended := (Token.lex_inOrder lexed).ended
  obtain ⟨_, _, grown⟩ := Parse.ofTokens_shaped .entity limit ended
  have accounts := accounts_omissions grown rfl
  refine ⟨_, Parse.ofSource?_of_lex lexed .entity limit,
    omissions (Parse.ofTokens .entity limit tokens).tree, ?_, ?_⟩
  · unfold Omission.Accounts Node.errorsOf at accounts
    rwa [Node.subtreesOf_cons, Node.subtreesOf_nil, List.append_nil] at accounts
  · refine (diagnostics_ofTree _).trans (List.map_congr_left ?_)
    intro o member
    exact Diagnostic.ofNode_error o.context (accounts.kind_eq_error o member)

/-- Error nodes in a nested body, in a method, in its service and between declarations. -/
theorem EntityBuilder.diagnostics_perm_errors_nested :
    ∃ p, Parse.ofSource? .entity 10
        ("entity A \x7b b C \x7b 1 \x7d \x7d = " ++
          "service S for (A) \x7b ?\n m() \x7b @x\n ! \x7d \x7d") = .ok p ∧
      ∃ reported : List Omission,
        (reported.map (·.node)).Perm (p.tree.subtrees.filter (·.kind == .error)) ∧
        (Model.ofEntityTree p.tree).diagnostics = reported.map fun o =>
          ⟨o.node.span.line, o.node.span.column, o.node.span.endLine, o.node.span.endColumn,
            .unrecognized o.context, o.node.text⟩ := by
  obtain ⟨tokens, lexed⟩ : ∃ tokens, Token.lex
      ("entity A \x7b b C \x7b 1 \x7d \x7d = " ++
        "service S for (A) \x7b ?\n m() \x7b @x\n ! \x7d \x7d") = .ok tokens :=
    Token.exists_of_isOk (by decide +kernel)
  exact diagnostics_perm_errors 10 lexed

end EntityFlow
