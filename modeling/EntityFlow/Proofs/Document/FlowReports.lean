import EntityFlow.Proofs.Document.Reports

/-!
# Reports of error nodes in flow documents

The diagnostics of a flow document are the error nodes on the surface of its tree, each reported
once, in the order of the source, with its own range and text
(`FlowBuilder.diagnostics_eq_surface`). The surface is the tree without the nested bodies of fields.
The grammar of fields is that of the entity language, where a nested body is an entity of its own;
the fields of a start have no such entity, and nobody looks into their bodies. So all error nodes
are reported if and only if there is none in a nested body (`Node.surfaceErrorsOf_eq_iff`), and a
source can have one there (`FlowBuilder.diagnostics_eq_surface_body`).
-/

namespace EntityFlow

/-! ## The surface of a tree -/

namespace Node

mutual

/-- A node and the nodes below it that stand in no nested body of a field. -/
def surface : Node → List Node
  | ⟨k, text, span, parts⟩ =>
      if k = .nestedField then [] else ⟨k, text, span, parts⟩ :: surfaceOf parts

/-- Some nodes and the nodes below them that stand in no nested body of a field. -/
def surfaceOf : List Node → List Node
  | [] => []
  | n :: rest => n.surface ++ surfaceOf rest

end

/-- The error nodes on the surface of some nodes. -/
def surfaceErrorsOf (ns : List Node) : List Node := (surfaceOf ns).filter (·.kind == .error)

/-- No error node is in a nested body in a tree. -/
def BodiesProper (n : Node) : Prop :=
  ∀ body ∈ n.subtrees, body.kind = .nestedField → ∀ m ∈ body.subtrees, m.kind ≠ .error

theorem surface_eq (n : Node) :
    n.surface = if n.kind = .nestedField then [] else n :: surfaceOf n.children := by
  cases n
  rw [surface]

@[simp] theorem surfaceErrorsOf_nil : surfaceErrorsOf [] = [] := by
  rw [surfaceErrorsOf, surfaceOf, List.filter_nil]

theorem surfaceErrorsOf_cons (n : Node) (rest : List Node) :
    surfaceErrorsOf (n :: rest) = surfaceErrorsOf [n] ++ surfaceErrorsOf rest := by
  simp only [surfaceErrorsOf, surfaceOf, List.append_nil, List.filter_append]

theorem surfaceErrorsOf_body {n : Node} (nested : n.kind = .nestedField) :
    surfaceErrorsOf [n] = [] := by
  rw [surfaceErrorsOf, surfaceOf, surfaceOf, List.append_nil, surface_eq, if_pos nested,
    List.filter_nil]

theorem surfaceErrorsOf_singleton {n : Node} (outside : n.kind ≠ .nestedField) :
    surfaceErrorsOf [n] =
      if n.kind = .error then n :: surfaceErrorsOf n.children else surfaceErrorsOf n.children := by
  rw [surfaceErrorsOf, surfaceOf, surfaceOf, List.append_nil, surface_eq, if_neg outside,
    List.filter_cons]
  simp only [beq_iff_eq]
  rfl

mutual

theorem surface_sublist : (n : Node) → n.surface.Sublist n.subtrees
  | ⟨k, text, span, parts⟩ => by
      rw [surface, subtrees]
      split
      · exact List.nil_sublist _
      · exact (surfaceOf_sublist parts).cons_cons _

theorem surfaceOf_sublist : (ns : List Node) → (surfaceOf ns).Sublist (subtreesOf ns)
  | [] => by
      rw [surfaceOf]
      exact List.nil_sublist _
  | n :: rest => by
      rw [surfaceOf, subtreesOf]
      exact (surface_sublist n).append (surfaceOf_sublist rest)

end

/-- The error nodes on the surface are among all error nodes, in the same order. -/
theorem surfaceErrorsOf_sublist (ns : List Node) : (surfaceErrorsOf ns).Sublist (errorsOf ns) :=
  (surfaceOf_sublist ns).filter _

theorem errorsOf_cons (n : Node) (rest : List Node) :
    errorsOf (n :: rest) = errorsOf [n] ++ errorsOf rest := by
  rw [← List.singleton_append, errorsOf_append]

theorem errorsOf_eq_nil_iff {n : Node} :
    errorsOf [n] = [] ↔ ∀ m ∈ n.subtrees, m.kind ≠ .error := by
  rw [errorsOf, subtreesOf_cons, subtreesOf_nil, List.append_nil, List.filter_eq_nil_iff]
  simp only [beq_iff_eq, ne_eq]

/-- The error nodes on the surface of two lists are all of them if that is so in each. -/
theorem surfaceErrorsOf_cons_eq_iff (n : Node) (rest : List Node) :
    surfaceErrorsOf (n :: rest) = errorsOf (n :: rest) ↔
      surfaceErrorsOf [n] = errorsOf [n] ∧ surfaceErrorsOf rest = errorsOf rest := by
  rw [surfaceErrorsOf_cons, errorsOf_cons]
  constructor
  · intro equal
    have first := (surfaceErrorsOf_sublist [n]).length_le
    have second := (surfaceErrorsOf_sublist rest).length_le
    have total := congrArg List.length equal
    rw [List.length_append, List.length_append] at total
    exact ⟨(surfaceErrorsOf_sublist [n]).eq_of_length (by omega),
      (surfaceErrorsOf_sublist rest).eq_of_length (by omega)⟩
  · rintro ⟨first, second⟩
    rw [first, second]

mutual

theorem surfaceErrors_eq_iff : (n : Node) →
    (surfaceErrorsOf [n] = errorsOf [n] ↔ n.BodiesProper)
  | ⟨k, text, span, parts⟩ => by
      by_cases nested : k = .nestedField
      · rw [surfaceErrorsOf_body nested, eq_comm, errorsOf_eq_nil_iff]
        constructor
        · intro proper body below _ m inside
          exact proper m (subtrees_subset _ below inside)
        · exact fun proper => proper _ (self_mem_subtrees _) nested
      · have inside := surfaceErrorsOf_eq_iff parts
        rw [surfaceErrorsOf_singleton nested, errorsOf_singleton]
        have same : (⟨k, text, span, parts⟩ : Node).BodiesProper ↔
            ∀ part ∈ parts, part.BodiesProper := by
          unfold BodiesProper
          rw [forall_mem_subtrees]
          constructor
          · intro proper part member body below
            exact proper.2 body (mem_subtreesOf.mpr ⟨part, member, below⟩)
          · intro proper
            refine ⟨fun isBody => absurd isBody nested, ?_⟩
            intro body below
            obtain ⟨part, member, below⟩ := mem_subtreesOf.mp below
            exact proper part member body below
        rw [same, ← inside]
        split
        · exact List.cons_inj_right _
        · exact Iff.rfl

/-- All error nodes are on the surface if and only if none is in a nested body. -/
theorem surfaceErrorsOf_eq_iff : (ns : List Node) →
    (surfaceErrorsOf ns = errorsOf ns ↔ ∀ n ∈ ns, n.BodiesProper)
  | [] => by simp
  | n :: rest => by
      rw [surfaceErrorsOf_cons_eq_iff, surfaceErrors_eq_iff n, surfaceErrorsOf_eq_iff rest,
        List.forall_mem_cons]

end

/-! ## Where error nodes stand on the surface -/

/-- The kinds of the parts of a node of a kind in a flow source that are error nodes on the surface
or have some below them. -/
def Kind.exposes : Kind → List Kind
  | .zfl => [.error, .config, .flow]
  | .flow => [.error, .flowSystems, .flowStart, .flowWhen, .flowEnd]
  | .config | .flowSystemService | .flowStart | .flowEnd => [.error]
  | .flowSystems => [.error, .flowSystem]
  | .flowSystem => [.error, .flowSystemService]
  | .flowWhenIf => [.error, .flowWhenIf, .flowWhenElseIf, .flowWhenElse]
  | .flowWhen | .flowWhenElseIf | .flowWhenElse => [.error, .flowWhenIf]
  | _ => []

/-- Whether there is no error node on the surface of a node of a kind. -/
def Kind.sealed (k : Kind) : Bool := k == .nestedField || k != .error && k.exposes.isEmpty

end Node

/-- On the surface, parts of a kind that can hold error nodes stand only where they are looked
for. -/
theorem Language.shapes_exposes :
    (Language.flow.shapes.all fun shape => shape.1 == .nestedField ||
      shape.2.yields.all fun k => shape.1.exposes.contains k || k.sealed) = true := by
  decide +kernel

namespace Node

/-- A node of a flow tree with all nodes below it. -/
def OfFlow (limit : Nat) (first last : Reading) (n : Node) : Prop :=
  n.Everywhere (Shaped limit Language.flow.shapes first last)

namespace OfFlow

variable {limit : Nat} {first last : Reading} {n : Node}

theorem shaped (grown : n.OfFlow limit first last) :
    n.Shaped limit Language.flow.shapes first last :=
  Everywhere.here grown

theorem part (grown : n.OfFlow limit first last) {part : Node} (member : part ∈ n.children) :
    part.OfFlow limit first last :=
  Everywhere.part grown member

/-- A part is of one of the kinds that have error nodes on the surface there, or it has none. -/
theorem exposed_or_sealed (grown : n.OfFlow limit first last) (outside : n.kind ≠ .nestedField) :
    ∀ part ∈ n.children, part.kind ∈ n.kind.exposes ∨ part.kind.sealed = true := by
  intro part member
  obtain ⟨shape, among, yields⟩ := List.mem_flatMap.mp (grown.shaped.kind_mem_parts part member)
  have check := List.all_eq_true.mp Language.shapes_exposes shape among
  split at yields
  · rename_i same
    rw [same, beq_eq_false_iff_ne.mpr outside, Bool.false_or] at check
    rw [← List.contains_iff_mem]
    exact Bool.or_eq_true_iff.mp (List.all_eq_true.mp check part.kind yields)
  · cases yields

end OfFlow

mutual

theorem surfaceErrors_of_sealed {limit : Nat} {first last : Reading} :
    (n : Node) → n.OfFlow limit first last → n.kind.sealed = true → surfaceErrorsOf [n] = []
  | ⟨k, text, span, parts⟩, grown, known => by
      by_cases nested : k = .nestedField
      · exact surfaceErrorsOf_body nested
      · have proper : k ≠ .error ∧ k.exposes = [] := by
          simpa [Kind.sealed, nested] using known
        rw [surfaceErrorsOf_singleton nested, if_neg proper.1]
        refine surfaceErrorsOf_of_sealed parts (fun part member => grown.part member) ?_
        intro part member
        have place := grown.exposed_or_sealed nested part member
        rw [proper.2] at place
        exact place.resolve_left List.not_mem_nil

theorem surfaceErrorsOf_of_sealed {limit : Nat} {first last : Reading} :
    (ns : List Node) → (∀ n ∈ ns, n.OfFlow limit first last) →
      (∀ n ∈ ns, n.kind.sealed = true) → surfaceErrorsOf ns = []
  | [], _, _ => surfaceErrorsOf_nil
  | n :: rest, grown, known => by
      obtain ⟨grownFirst, grownRest⟩ := List.forall_mem_cons.mp grown
      obtain ⟨knownFirst, knownRest⟩ := List.forall_mem_cons.mp known
      rw [surfaceErrorsOf_cons, surfaceErrors_of_sealed n grownFirst knownFirst,
        surfaceErrorsOf_of_sealed rest grownRest knownRest, List.append_nil]

end

end Node

/-! ## Reported nodes -/

/-- That the nodes left out are the error nodes on the surface of some nodes, in order. -/
def Omission.ListsErrors (os : List Omission) (ns : List Node) : Prop :=
  os.map (·.node) = Node.surfaceErrorsOf ns

namespace Omission.ListsErrors

variable {os os' : List Omission} {n : Node} {ns : List Node}

theorem nil : ListsErrors [] [] := Node.surfaceErrorsOf_nil.symm

theorem cons (first : ListsErrors os [n]) (rest : ListsErrors os' ns) :
    ListsErrors (os ++ os') (n :: ns) := by
  unfold ListsErrors
  rw [List.map_append, Node.surfaceErrorsOf_cons, first, rest]

/-- What is left out of some nodes one by one is left out of them all. -/
theorem flatMap {omitted : Node → List Omission} (each : ∀ n ∈ ns, ListsErrors (omitted n) [n]) :
    ListsErrors (ns.flatMap omitted) ns := by
  induction ns with
  | nil => exact nil
  | cons n rest ih =>
      obtain ⟨first, others⟩ := List.forall_mem_cons.mp each
      exact first.cons (ih others)

theorem of_children (proper : n.kind ≠ .error) (outside : n.kind ≠ .nestedField)
    (below : ListsErrors os n.children) : ListsErrors os [n] := by
  unfold ListsErrors
  rw [Node.surfaceErrorsOf_singleton outside, if_neg proper]
  exact below

theorem mem_errorsOf (lists : ListsErrors os ns) : ∀ o ∈ os, o.node ∈ Node.errorsOf ns := by
  intro o member
  have among := List.mem_map_of_mem (f := (·.node)) member
  rw [show os.map (·.node) = Node.surfaceErrorsOf ns from lists] at among
  exact (Node.surfaceErrorsOf_sublist ns).subset among

theorem kind_eq_error (lists : ListsErrors os ns) : ∀ o ∈ os, o.node.kind = .error :=
  fun o member => beq_iff_eq.mp (List.mem_filter.mp (lists.mem_errorsOf o member)).2

end Omission.ListsErrors

namespace Node.OfFlow

open Omission (ListsErrors)

variable {limit : Nat} {first last : Reading} {n : Node}

theorem lists_sealed (grown : n.OfFlow limit first last) (known : n.kind.sealed = true) :
    ListsErrors [] [n] :=
  (surfaceErrors_of_sealed n grown known).symm

theorem lists_error (grown : n.OfFlow limit first last) (context : Context)
    (isError : n.kind = .error) : ListsErrors [⟨n, context⟩] [n] := by
  have empty : n.children = [] := by
    rcases grown.shaped with ⟨_, empty⟩ | ⟨g, shape, _⟩
    · exact empty
    · rw [isError] at shape
      exact absurd (List.mem_map_of_mem shape)
        (by decide +kernel : Kind.error ∉ Language.flow.shapes.map (·.1))
  unfold ListsErrors
  rw [surfaceErrorsOf_singleton (by simp [isError]), if_pos isError, empty, surfaceErrorsOf_nil]
  rfl

/-- Of a node with nothing deeper on the surface, the error node is left out. -/
theorem lists_ofError (grown : n.OfFlow limit first last) (context : Context)
    (flat : n.kind = .error ∨ n.kind.sealed = true) :
    ListsErrors (Omission.ofError context n) [n] := by
  rcases flat with isError | known
  · unfold Omission.ofError
    rw [isError]
    exact grown.lists_error context isError
  · have proper : n.kind ≠ .error := by
      intro isError
      rw [isError] at known
      cases known
    rw [Omission.ofError_eq_nil context proper]
    exact grown.lists_sealed known

/-- The error nodes on the surface of the parts of a node, part by part. -/
theorem lists_parts (grown : n.OfFlow limit first last) (outside : n.kind ≠ .nestedField)
    {omitted : Node → List Omission}
    (each : ∀ part : Node, part.OfFlow limit first last →
      part.kind ∈ n.kind.exposes ∨ part.kind.sealed = true → ListsErrors (omitted part) [part]) :
    ListsErrors (n.children.flatMap omitted) n.children :=
  ListsErrors.flatMap fun part member =>
    each part (grown.part member) (grown.exposed_or_sealed outside part member)

/-- The error nodes of a block that holds nothing deeper on the surface. -/
theorem lists_flat (grown : n.OfFlow limit first last) (context : Context)
    (flat : n.kind.exposes = [.error]) :
    ListsErrors (n.children.flatMap (Omission.ofError context)) n.children := by
  have outside : n.kind ≠ .nestedField := by
    intro nested
    rw [nested] at flat
    cases flat
  refine grown.lists_parts outside fun part grownPart place => ?_
  rw [flat, List.mem_singleton] at place
  exact grownPart.lists_ofError context place

end Node.OfFlow

/-! ## Flows -/

namespace FlowBuilder

open Omission (ListsErrors)

variable {limit : Nat} {first last : Reading}

mutual

theorem lists_rulePart :
    (n : Node) → n.OfFlow limit first last → n.kind ∈ [Node.Kind.error, .flowWhenIf,
      .flowWhenElseIf, .flowWhenElse] ∨ n.kind.sealed = true → ListsErrors (omittedInRulePart n) [n]
  | ⟨k, text, span, parts⟩, grown, place => by
      -- the parts of a branch are of these kinds again
      have inside (branch : k = .flowWhenIf ∨ k = .flowWhenElseIf ∨ k = .flowWhenElse) :
          ListsErrors (omittedInRule parts) [⟨k, text, span, parts⟩] := by
        have proper : k ≠ .error ∧ k ≠ .nestedField := by
          rcases branch with rfl | rfl | rfl <;> simp
        refine ListsErrors.of_children proper.1 proper.2 ?_
        refine lists_rule parts (fun part member => grown.part member) ?_
        intro part member
        refine (grown.exposed_or_sealed proper.2 part member).imp_left fun exposed => ?_
        rcases branch with rfl | rfl | rfl
        · exact exposed
        · exact List.mem_of_mem_take (i := 2) exposed
        · exact List.mem_of_mem_take (i := 2) exposed
      by_cases branch : k = .flowWhenIf ∨ k = .flowWhenElseIf ∨ k = .flowWhenElse
      · have same : omittedInRulePart ⟨k, text, span, parts⟩ = omittedInRule parts := by
          rcases branch with rfl | rfl | rfl <;> rw [omittedInRulePart]
        rw [same]
        exact inside branch
      · obtain ⟨noIf, noElseIf, noElse⟩ : k ≠ .flowWhenIf ∧ k ≠ .flowWhenElseIf ∧
            k ≠ .flowWhenElse := by simpa [not_or] using branch
        rw [omittedInRulePart]
        · refine grown.lists_ofError .when (place.imp_left fun among => ?_)
          simpa [noIf, noElseIf, noElse] using among
        all_goals simp [noIf, noElseIf, noElse]

theorem lists_rule :
    (ns : List Node) → (∀ n ∈ ns, n.OfFlow limit first last) →
      (∀ n ∈ ns, n.kind ∈ [Node.Kind.error, .flowWhenIf, .flowWhenElseIf, .flowWhenElse] ∨
        n.kind.sealed = true) → ListsErrors (omittedInRule ns) ns
  | [], _, _ => by
      rw [omittedInRule]
      exact ListsErrors.nil
  | n :: rest, grown, places => by
      obtain ⟨grownFirst, grownRest⟩ := List.forall_mem_cons.mp grown
      obtain ⟨placeFirst, placesRest⟩ := List.forall_mem_cons.mp places
      rw [omittedInRule]
      exact (lists_rulePart n grownFirst placeFirst).cons (lists_rule rest grownRest placesRest)

end

section Parts

variable {n : Node}

theorem lists_system (grown : n.OfFlow limit first last)
    (place : n.kind ∈ [Node.Kind.error, .flowSystemService] ∨ n.kind.sealed = true) :
    ListsErrors (omittedInSystem n) [n] := by
  unfold omittedInSystem
  split
  · rename_i service
    exact ListsErrors.of_children (by simp [service]) (by simp [service])
      (grown.lists_flat .service (by rw [service]; rfl))
  · rename_i other
    refine grown.lists_ofError .system (place.imp_left fun among => ?_)
    exact (List.mem_cons.mp among).resolve_right fun inside => other (List.mem_singleton.mp inside)

theorem lists_systems (grown : n.OfFlow limit first last)
    (place : n.kind ∈ [Node.Kind.error, .flowSystem] ∨ n.kind.sealed = true) :
    ListsErrors (omittedInSystems n) [n] := by
  unfold omittedInSystems
  split
  · rename_i system
    obtain ⟨name, found⟩ := Option.isSome_iff_exists.mp
      (grown.shaped.hasChild (k := .flowSystemName) (by rw [system]; decide))
    rw [found]
    refine ListsErrors.of_children (by simp [system]) (by simp [system]) ?_
    refine grown.lists_parts (by simp [system]) fun part grownPart placePart => ?_
    rw [system] at placePart
    exact lists_system grownPart placePart
  · rename_i other
    refine grown.lists_ofError .systems (place.imp_left fun among => ?_)
    exact (List.mem_cons.mp among).resolve_right fun inside => other (List.mem_singleton.mp inside)

theorem lists_start (grown : n.OfFlow limit first last) (start : n.kind = .flowStart) :
    ListsErrors (omittedInStart n) [n] := by
  obtain ⟨name, found⟩ := Option.isSome_iff_exists.mp
    (grown.shaped.hasChild (k := .flowStartName) (by rw [start]; decide))
  unfold omittedInStart
  rw [found]
  exact ListsErrors.of_children (by simp [start]) (by simp [start])
    (grown.lists_flat .start (by rw [start]; rfl))

theorem lists_when (grown : n.OfFlow limit first last) (isWhen : n.kind = .flowWhen) :
    ListsErrors (omittedInRule n.children) [n] := by
  refine ListsErrors.of_children (by simp [isWhen]) (by simp [isWhen]) ?_
  refine lists_rule n.children (fun part member => grown.part member) ?_
  intro part member
  refine (grown.exposed_or_sealed (by simp [isWhen]) part member).imp_left fun exposed => ?_
  rw [isWhen] at exposed
  exact List.mem_of_mem_take (i := 2) exposed

theorem lists_flowPart (grown : n.OfFlow limit first last)
    (place : n.kind ∈ Node.Kind.flow.exposes ∨ n.kind.sealed = true) :
    ListsErrors (omittedInFlow n) [n] := by
  unfold omittedInFlow
  split
  · rename_i systems
    refine ListsErrors.of_children (by simp [systems]) (by simp [systems]) ?_
    refine grown.lists_parts (by simp [systems]) fun part grownPart placePart => ?_
    rw [systems] at placePart
    exact lists_systems grownPart placePart
  · exact lists_start grown ‹_›
  · exact lists_when grown ‹_›
  · rename_i ending
    exact ListsErrors.of_children (by simp [ending]) (by simp [ending])
      (grown.lists_flat .ends (by rw [ending]; rfl))
  · rename_i noSystems noStart noWhen noEnd
    refine grown.lists_ofError .flow (place.imp_left fun among => ?_)
    simp only [Node.Kind.exposes, List.mem_cons, List.not_mem_nil, or_false] at among
    rcases among with isError | systems | start | isWhen | ending
    · exact isError
    · exact (noSystems systems).elim
    · exact (noStart start).elim
    · exact (noWhen isWhen).elim
    · exact (noEnd ending).elim

theorem lists_config (grown : n.OfFlow limit first last) (config : n.kind = .config) :
    ListsErrors (n.children.flatMap omittedInConfig) [n] := by
  refine ListsErrors.of_children (by simp [config]) (by simp [config]) (ListsErrors.flatMap ?_)
  intro part member
  have either : part.kind ∈ [Node.Kind.error, .configOption] := by
    have parts := grown.shaped.kind_mem_parts part member
    rwa [config] at parts
  rcases List.mem_cons.mp either with isError | option
  · unfold omittedInConfig
    rw [isError]
    exact (grown.part member).lists_error .config isError
  · have isOption : part.kind = .configOption := List.mem_singleton.mp option
    unfold omittedInConfig
    rw [isOption]
    exact (grown.part member).lists_sealed (by rw [isOption]; rfl)

theorem lists_topLevel (grown : n.OfFlow limit first last)
    (known : n.kind ∈ Language.flow.parts .zfl) : ListsErrors (omittedInTopLevel n) [n] := by
  have top : n.kind ∈ [Node.Kind.globalJavadoc, .error, .importDecl, .config, .flow] := known
  unfold omittedInTopLevel
  cases kind : n.kind with
  | globalJavadoc => exact grown.lists_sealed (by rw [kind]; rfl)
  | importDecl => exact grown.lists_sealed (by rw [kind]; rfl)
  | error => exact grown.lists_error .document kind
  | config => exact lists_config grown kind
  | flow =>
      obtain ⟨name, found⟩ := Option.isSome_iff_exists.mp
        (grown.shaped.hasChild (k := .flowName) (by rw [kind]; decide))
      simp only [found]
      refine ListsErrors.of_children (by simp [kind]) (by simp [kind]) ?_
      refine grown.lists_parts (by simp [kind]) fun part grownPart placePart => ?_
      rw [kind] at placePart
      exact lists_flowPart grownPart placePart
  | _ =>
      rw [kind] at top
      exact absurd top (by decide)

end Parts

/-- What a flow document leaves out are the error nodes on the surface of its tree. -/
theorem lists_omissions {tree : Node} (grown : tree.OfFlow limit first last)
    (root : tree.kind = .zfl) : ListsErrors (omissions tree) [tree] := by
  refine ListsErrors.of_children (by simp [root]) (by simp [root]) (ListsErrors.flatMap ?_)
  intro n member
  refine lists_topLevel (grown.part member) ?_
  have parts := grown.shaped.kind_mem_parts n member
  rwa [root] at parts

/-! ## Diagnostics -/

/-- **A flow document reports the error nodes on the surface of its tree**, each once and in order,
as unrecognized input with its range and text, and nothing else. These are all error nodes of the
tree if and only if there is none in a nested body. -/
theorem diagnostics_eq_surface (limit : Nat) {source : String} {tokens : List Token}
    (lexed : Token.lex source = .ok tokens) :
    ∃ p, Parse.ofSource? .flow limit source = .ok p ∧
      ∃ reported : List Omission,
        reported.map (·.node) = p.tree.surface.filter (·.kind == .error) ∧
        (Model.ofFlowTree p.tree).diagnostics = reported.map (fun o =>
          ⟨o.node.span.line, o.node.span.column, o.node.span.endLine, o.node.span.endColumn,
            .unrecognized o.context, o.node.text⟩) ∧
        ((reported.map (·.node)).Perm (p.tree.subtrees.filter (·.kind == .error)) ↔
          p.tree.BodiesProper) := by
  have ended := (Token.lex_inOrder lexed).ended
  obtain ⟨_, _, grown⟩ := Parse.ofTokens_shaped .flow limit ended
  have lists := lists_omissions grown rfl
  refine ⟨_, Parse.ofSource?_of_lex lexed .flow limit,
    omissions (Parse.ofTokens .flow limit tokens).tree, ?_, ?_, ?_⟩
  · unfold Omission.ListsErrors Node.surfaceErrorsOf at lists
    rwa [Node.surfaceOf, Node.surfaceOf, List.append_nil] at lists
  · refine (diagnostics_ofTree _).trans (List.map_congr_left ?_)
    intro o member
    exact Diagnostic.ofNode_error o.context (lists.kind_eq_error o member)
  · rw [show (omissions _).map (·.node) = Node.surfaceErrorsOf [_] from lists,
      ← Node.surfaceErrors_eq_iff, Node.errorsOf, Node.subtreesOf_cons, Node.subtreesOf_nil,
      List.append_nil]
    constructor
    · intro same
      have inside := Node.surfaceErrorsOf_sublist [(Parse.ofTokens .flow limit tokens).tree]
      rw [Node.errorsOf, Node.subtreesOf_cons, Node.subtreesOf_nil, List.append_nil] at inside
      exact inside.eq_of_length same.length_eq
    · intro equal
      rw [equal]

/-- A flow with error nodes in a start, in one of its nested bodies, in a branch of a rule and in a
service of a system, and one behind it. -/
def straySource : String :=
  "flow F \x7b\n  start S \x7b\n    a B \x7b\n      1\n    \x7d\n    !\n  \x7d\n" ++
  "  when e \x7b\n    if 'c' \x7b\n      command\n    \x7d\n  \x7d\n" ++
  "  systems \x7b\n    T \x7b\n      service \x7b ? \x7d\n    \x7d\n  \x7d\n\x7d\n=\n"

theorem diagnostics_eq_surface_stray :
    ∃ p, Parse.ofSource? .flow 10 straySource = .ok p ∧
      ∃ reported : List Omission,
        reported.map (·.node) = p.tree.surface.filter (·.kind == .error) ∧
        (Model.ofFlowTree p.tree).diagnostics = reported.map (fun o =>
          ⟨o.node.span.line, o.node.span.column, o.node.span.endLine, o.node.span.endColumn,
            .unrecognized o.context, o.node.text⟩) ∧
        ((reported.map (·.node)).Perm (p.tree.subtrees.filter (·.kind == .error)) ↔
          p.tree.BodiesProper) := by
  obtain ⟨tokens, lexed⟩ : ∃ tokens, Token.lex straySource = .ok tokens :=
    Token.exists_of_isOk (by decide +kernel)
  exact diagnostics_eq_surface 10 lexed

/-- A flow with a nested body that does not keep to the grammar. -/
def brokenBody : String :=
  "flow F \x7b\n  start S \x7b\n    a B \x7b\n      1\n    \x7d\n  \x7d\n\x7d\n"

/-- The error node in this nested body is not reported. -/
theorem diagnostics_eq_surface_body :
    ∃ p, Parse.ofSource? .flow 10 brokenBody = .ok p ∧
      ¬ ∃ reported : List Omission,
        (reported.map (·.node)).Perm (p.tree.subtrees.filter (·.kind == .error)) ∧
        (Model.ofFlowTree p.tree).diagnostics = reported.map fun o =>
          ⟨o.node.span.line, o.node.span.column, o.node.span.endLine, o.node.span.endColumn,
            .unrecognized o.context, o.node.text⟩ := by
  obtain ⟨tokens, lexed⟩ : ∃ tokens, Token.lex brokenBody = .ok tokens :=
    Token.exists_of_isOk (by decide +kernel)
  refine ⟨_, Parse.ofSource?_of_lex lexed .flow 10, ?_⟩
  have computed : ((Token.lex brokenBody).toOption.map fun tokens =>
      let tree := (Parse.ofTokens .flow 10 tokens).tree
      ((Model.ofFlowTree tree).diagnostics.length,
        (tree.subtrees.filter (·.kind == .error)).length)) = some (0, 1) := by
    decide +kernel
  rw [lexed] at computed
  obtain ⟨unreported, errors⟩ := Prod.mk.inj (Option.some.inj computed)
  rintro ⟨reported, same, diagnostics⟩
  have count := same.length_eq
  rw [diagnostics, List.length_map] at unreported
  rw [errors, List.length_map, unreported] at count
  cases count

end FlowBuilder

end EntityFlow
