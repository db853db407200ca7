import EntityFlow.Proofs.Document.Standing
import EntityFlow.Proofs.Document.Strictness
import EntityFlow.Proofs.Grammar.Substance
import EntityFlow.Proofs.Grammar.Tiling
import Mathlib.Data.List.Pairwise

/-!
# The places of names

The place of a declaration is recorded under its path, and the place of its name, if it has one of
its own, under the path of the name. A path may be that of several declarations, and then the last
one counts: for the path and for the path of the name alike, unless the last one has no name. So
the place of the name is inside the place that the path has if and only if the last declaration of
the path has a name of its own (`compile_names_inside`).

A nested body has none. It takes over the path of a declared entity that is called like the type of
its field, while the path of the name stays with the entity. The body lies in a field and the name
beside the fields (`EntityBuilder.stands`), and nodes beside each other are apart
(`Node.not_contains_of_ne`), so the name is never inside the body.
-/

namespace EntityFlow

/-! ## Nodes inside and beside each other -/

namespace Node

variable {tokens : List Token} {n a b x y : Node}

/-- Whatever is below a node is inside it. -/
theorem contains_of_mem_subtrees (faithful : n.Everywhere (Faithful tokens)) :
    ∀ m ∈ n.subtrees, n.span.contains m.span = true := by
  refine forall_subtrees_of_step n ?_ ?_
  · rw [Span.contains_iff]
    omega
  · intro m below within part isPart
    have inner := (faithful m below).inside part isPart
    rw [Span.contains_iff] at within inner ⊢
    omega

/-- Different parts of a node are apart. -/
theorem Faithful.apart_of_ne (faithful : n.Faithful tokens) (isPart : a ∈ n.children)
    (isPart' : b ∈ n.children) (different : a ≠ b) :
    a.span.stop ≤ b.span.start ∨ b.span.stop ≤ a.span.start := by
  have pairwise : n.children.Pairwise fun a b =>
      a.span.stop ≤ b.span.start ∨ b.span.stop ≤ a.span.start :=
    faithful.apart.imp Or.inl
  have : Std.Symm fun a b : Node => a.span.stop ≤ b.span.start ∨ b.span.stop ≤ a.span.start :=
    ⟨fun _ _ apart => apart.symm⟩
  exact pairwise.forall isPart isPart' different

/-- What is below a part does not hold what is below another part. -/
theorem not_contains_of_ne (faithful : n.Everywhere (Faithful tokens))
    (isPart : a ∈ n.children) (isPart' : b ∈ n.children) (different : a ≠ b)
    (below : x ∈ a.subtrees) (below' : y ∈ b.subtrees) (filled : y.span.start < y.span.stop) :
    ¬ x.span.contains y.span = true := by
  intro holds
  have apart := faithful.here.apart_of_ne isPart isPart' different
  have inner := contains_of_mem_subtrees (faithful.part isPart) x below
  have inner' := contains_of_mem_subtrees (faithful.part isPart') y below'
  rw [Span.contains_iff] at holds inner inner'
  omega

end Node

/-! ## Names of sites -/

namespace Site

theorem mem_entries {s : Site} {path : String} {span : Span} :
    (path, span) ∈ s.entries ↔ (path = s.address.path ∧ span = s.node.span) ∨
      ∃ name, s.name = some name ∧ path = s.address.path ++ ".name" ∧ span = name.span := by
  unfold entries
  cases s.name with
  | none => simp
  | some name => simp [or_comm]

/-- Sites whose names are inside what they name and outside of anything else. -/
structure Orderly (sites : List Site) : Prop where
  undotted : ∀ s ∈ sites, s.address.Undotted
  inside : ∀ s ∈ sites, ∀ name, s.name = some name → s.node.span.contains name.span = true
  /-- What has no name of its own does not hold the name of something with the same address. -/
  outside : ∀ s ∈ sites, s.name = none → ∀ t ∈ sites, t.address = s.address →
    ∀ name, t.name = some name → ¬ s.node.span.contains name.span = true
  /-- Relationships do not hold each other. -/
  apart : ∀ s ∈ sites, s.address.isRelationship = true → ∀ t ∈ sites,
    t.address.isRelationship = true → t.address ≠ s.address →
      ¬ s.node.span.contains t.node.span = true

namespace Orderly

variable {sites : List Site} {s : Site} {path : String} {whole name : Span}

theorem exists_entry {key : String} {span : Span}
    (located : (locations sites).value? key = some span) :
    ∃ s ∈ sites, (key, span) ∈ s.entries :=
  List.mem_flatMap.mp (OrderedMap.mem_ofEntries (OrderedMap.mem_of_value? located))

/-- The name of a path is that of a site with this path, or it is a relationship itself and so is
what has the path. -/
theorem name_cases (orderly : Orderly sites) (member : s ∈ sites)
    (located : (locations sites).value? (s.address.path ++ ".name") = some name) :
    (∃ t ∈ sites, t.address = s.address ∧ ∃ n, t.name = some n ∧ name = n.span) ∨
      ∃ t ∈ sites, s.address.isRelationship = true ∧ t.address.isRelationship = true ∧
        t.address ≠ s.address ∧ name = t.node.span := by
  obtain ⟨t, inner, recorded⟩ := exists_entry located
  have undotted := orderly.undotted s member
  have undotted' := orderly.undotted t inner
  rcases mem_entries.mp recorded with ⟨same, place⟩ | ⟨n, own, same, place⟩
  · obtain ⟨kind, key, isFirst, isSecond⟩ :=
      Address.relationships_of_name undotted undotted' same.symm
    refine Or.inr ⟨t, inner, by rw [isFirst]; rfl, by rw [isSecond]; rfl, ?_, place⟩
    -- an address is no name of itself
    intro equal
    rw [equal] at same
    simp at same
  · have paths : t.address.path = s.address.path := ((String.append_left_inj _).mp same).symm
    exact Or.inl ⟨t, inner, Address.eq_of_path_eq undotted' undotted paths, n, own, place⟩

/-- A path whose name is located, too, is that of a site. -/
theorem exists_last (orderly : Orderly sites)
    (located : (locations sites).value? path = some whole)
    (named : (locations sites).value? (path ++ ".name") = some name) :
    ∃ s, LastOf (·.address.path = path) sites s := by
  obtain ⟨s, member, recorded⟩ := exists_entry located
  rcases mem_entries.mp recorded with ⟨same, _⟩ | ⟨n, own, same, _⟩
  · exact exists_lastOf ⟨s, member, same.symm⟩
  · -- the path would be that of a name, and so its name that of the name of a name
    exfalso
    have undotted := orderly.undotted s member
    have isNamed : s.name.isSome = true := by
      rw [own]
      rfl
    obtain ⟨t, inner, recorded'⟩ := exists_entry named
    have undotted' := orderly.undotted t inner
    rw [same] at recorded'
    rcases mem_entries.mp recorded' with ⟨same', _⟩ | ⟨_, _, same', _⟩
    · exact Address.path_ne_name_name undotted undotted' (isRelationship_of_named isNamed)
        same'.symm
    · have paths := (String.append_left_inj _).mp same'
      exact not_path_of_name undotted' undotted isNamed paths.symm

/-- The last site with a path is the last one with its own address. -/
theorem last_address (last : LastOf (·.address.path = path) sites s) :
    LastOf (·.address = s.address) sites s := by
  refine last.of_imp (fun t same => ?_) rfl
  rw [same]
  exact last.holds

/-- The place of a path is that of the last site with this path. -/
theorem whole_eq (orderly : Orderly sites) (last : LastOf (·.address.path = path) sites s)
    (located : (locations sites).value? path = some whole) : whole = s.node.span := by
  have place := value?_locations orderly.undotted (last_address last)
  rw [last.holds, located] at place
  exact Option.some.inj place

/-- If the last site with a path has a name, this name is the located one and inside it. -/
theorem inside_of_last {n : Node} (orderly : Orderly sites)
    (last : LastOf (·.address.path = path) sites s) (own : s.name = some n)
    (located : (locations sites).value? path = some whole)
    (named : (locations sites).value? (path ++ ".name") = some name) :
    whole.contains name = true := by
  have place := value?_locations_name orderly.undotted (last_address last) own
  rw [last.holds, named] at place
  rw [orderly.whole_eq last located, Option.some.inj place]
  exact orderly.inside s last.mem n own

/-- If the last site with a path has no name, the located one is that of another site. -/
theorem outside_of_last (orderly : Orderly sites) (last : LastOf (·.address.path = path) sites s)
    (nameless : s.name = none) (located : (locations sites).value? path = some whole)
    (named : (locations sites).value? (path ++ ".name") = some name) :
    ¬ whole.contains name = true := by
  rw [orderly.whole_eq last located]
  rw [← last.holds] at named
  rcases orderly.name_cases last.mem named with
    ⟨t, inner, same, n, isName, rfl⟩ | ⟨t, inner, isFirst, isSecond, different, rfl⟩
  · exact orderly.outside s last.mem nameless t inner same n isName
  · exact orderly.apart s last.mem isFirst t inner isSecond different

/-- **The place of a name is inside what has its path if and only if the last site with this path has
a name of its own.** -/
theorem contains_iff (orderly : Orderly sites)
    (located : (locations sites).value? path = some whole)
    (named : (locations sites).value? (path ++ ".name") = some name) :
    whole.contains name = true ↔
      ∃ s, LastOf (·.address.path = path) sites s ∧ s.name.isSome = true := by
  constructor
  · intro holds
    obtain ⟨s, last⟩ := orderly.exists_last located named
    refine ⟨s, last, ?_⟩
    cases own : s.name with
    | some n => rfl
    | none => exact absurd holds (orderly.outside_of_last last own located named)
  · rintro ⟨s, last, isNamed⟩
    obtain ⟨n, own⟩ := Option.isSome_iff_exists.mp isNamed
    exact orderly.inside_of_last last own located named

end Orderly

end Site

/-! ## Names of the entity language -/

namespace EntityBuilder

section Orderly

variable {tree : Node} {tokens : List Token} {s t : Site}

/-- A name is inside what it names. -/
theorem Stands.inside (stands : Stands tree s) (faithful : tree.Everywhere (Node.Faithful tokens)) :
    ∀ name, s.name = some name → s.node.span.contains name.span = true := by
  intro name own
  cases stands with
  | @entity part n found top isName =>
      cases own
      have below : n ∈ tree.subtrees := Node.mem_subtrees_of_part top
      exact (faithful n below).inside name (List.mem_of_find?_eq_some isName)
  | named _ below isPart _ =>
      cases own
      exact (faithful _ below).inside name isPart
  | body => cases own
  | relationship => cases own

/-- The body of a field does not hold the name of a declared entity, event or input. -/
theorem not_contains_of_body {part : Section} {n n' field body name : Node}
    (faithful : tree.Everywhere (Node.Faithful tokens)) (filled : tree.Everywhere Node.Filled)
    (top : n ∈ tree.children) (isPart : field ∈ n.children) (isField : field.kind = .field)
    (below : body ∈ field.subtrees) (top' : n' ∈ tree.children)
    (isName : n'.child part.nameKind = some name) : ¬ body.span.contains name.span = true := by
  have isPart' : name ∈ n'.children := List.mem_of_find?_eq_some isName
  have kind : name.kind = part.nameKind := by simpa using List.find?_some isName
  have notEmpty : name.span.start < name.span.stop := by
    refine ((filled.part top').part isPart').here ?_
    rw [kind]
    cases part <;> rfl
  by_cases sameNode : n = n'
  · -- the body lies in a field beside the name
    subst sameNode
    have different : field ≠ name := by
      intro equal
      rw [← equal, isField] at kind
      cases part <;> cases kind
    exact Node.not_contains_of_ne (faithful.part top) isPart isPart' different below
      name.self_mem_subtrees notEmpty
  · exact Node.not_contains_of_ne faithful top top' sameNode
      (Node.subtrees_subset n (Node.mem_subtrees_of_part isPart) below)
      (Node.mem_subtrees_of_part isPart') notEmpty

/-- What has no name of its own does not hold the name of something with the same address. -/
theorem Stands.outside (stands : Stands tree s) (stands' : Stands tree t)
    (faithful : tree.Everywhere (Node.Faithful tokens)) (filled : tree.Everywhere Node.Filled)
    (nameless : s.name = none) (same : t.address = s.address) :
    ∀ name, t.name = some name → ¬ s.node.span.contains name.span = true := by
  intro name own
  cases stands with
  | entity => cases nameless
  | named => cases nameless
  | relationship =>
      have isRelationship : t.address.isRelationship = true := by
        rw [same]
        rfl
      rw [t.unnamed isRelationship] at own
      cases own
  | @body part type n field body top isPart isField below =>
      cases stands' with
      | entity top' isName =>
          cases own
          exact not_contains_of_body faithful filled top isPart isField below top' isName
      | named _ _ _ noEntity => exact absurd same (noEntity part type)
      | body => cases own
      | relationship => cases own

/-- Relationships do not hold each other. -/
theorem Stands.apart (stands : Stands tree s) (stands' : Stands tree t)
    (faithful : tree.Everywhere (Node.Faithful tokens)) (filled : tree.Everywhere Node.Filled)
    (isFirst : s.address.isRelationship = true) (isSecond : t.address.isRelationship = true)
    (different : t.address ≠ s.address) : ¬ s.node.span.contains t.node.span = true := by
  cases stands with
  | entity => cases isFirst
  | named other => cases other.symm.trans isFirst
  | body => cases isFirst
  | @relationship block n r top isPart _ known =>
      cases stands' with
      | entity => cases isSecond
      | named other => cases other.symm.trans isSecond
      | body => cases isSecond
      | @relationship block' n' r' top' isPart' kind known' =>
          have notEmpty : n'.span.start < n'.span.stop := by
            refine ((filled.part top').part isPart').here ?_
            rw [kind]
            rfl
          by_cases sameBlock : block = block'
          · subst sameBlock
            have differentNodes : n ≠ n' := by
              rintro rfl
              rw [known] at known'
              cases known'
              exact different rfl
            exact Node.not_contains_of_ne (faithful.part top) isPart isPart' differentNodes
              n.self_mem_subtrees n'.self_mem_subtrees notEmpty
          · exact Node.not_contains_of_ne faithful top top' sameBlock
              (Node.mem_subtrees_of_part isPart) (Node.mem_subtrees_of_part isPart') notEmpty

theorem orderly_sites (faithful : tree.Everywhere (Node.Faithful tokens))
    (filled : tree.Everywhere Node.Filled)
    (undotted : ∀ s ∈ sites tree, s.address.Undotted) : Site.Orderly (sites tree) where
  undotted := undotted
  inside := by
    intro s member
    exact (stands member).inside faithful
  outside := by
    intro s member nameless t member' same
    exact (stands member).outside (stands member') faithful filled nameless same
  apart := by
    intro s member isFirst t member' isSecond different
    exact (stands member).apart (stands member') faithful filled isFirst isSecond different

end Orderly

end EntityBuilder

/-! ## Names of the flow language -/

namespace FlowBuilder

section Orderly

variable {tree : Node} {tokens : List Token} {s : Site}

theorem orderly_sites (faithful : tree.Everywhere (Node.Faithful tokens))
    (undotted : ∀ s ∈ sites tree, s.address.Undotted) : Site.Orderly (sites tree) where
  undotted := undotted
  inside := by
    intro s member name own
    cases stands member with
    | system => cases own
    | start => cases own
    | flow top isPart =>
        cases own
        exact (faithful _ (Node.mem_subtrees_of_part top)).inside name isPart
  outside := by
    intro s member nameless t member' same name own
    have isNamed := (stands member).isSome_name (stands member') same (by rw [own]; rfl)
    rw [nameless] at isNamed
    cases isNamed
  apart := by
    intro s member isFirst
    cases (stands member).isRelationship.symm.trans isFirst

/-- Whatever has a path whose name is located, too, is a flow. -/
theorem isSome_name_of_located (orderly : Site.Orderly (sites tree)) (member : s ∈ sites tree)
    {name : Span}
    (located : (Site.locations (sites tree)).value? (s.address.path ++ ".name") = some name) :
    s.name.isSome = true := by
  rcases orderly.name_cases member located with ⟨t, inner, same, n, isName, _⟩ | ⟨_, _, isFirst, _⟩
  · refine (stands member).isSome_name (stands inner) same ?_
    rw [isName]
    rfl
  · cases (stands member).isRelationship.symm.trans isFirst

end Orderly

end FlowBuilder

/-! ## Names of both languages -/

/-- Where a tree declares what it declares. -/
def Language.sites (language : Language) (tree : Node) : List Site :=
  match language with
  | .entity => EntityBuilder.sites tree
  | .flow => FlowBuilder.sites tree

theorem Model.locations_ofTree (language : Language) (tree : Node) :
    (Model.ofTree language tree).locations = Site.locations (language.sites tree) := by
  cases language with
  | entity => exact EntityBuilder.locations_ofTree tree
  | flow => exact FlowBuilder.locations_ofTree tree

theorem Language.orderly_sites (language : Language) {tree : Node} {tokens : List Token}
    (faithful : tree.Everywhere (Node.Faithful tokens)) (filled : tree.Everywhere Node.Filled)
    (undotted : ∀ s ∈ language.sites tree, s.address.Undotted) :
    Site.Orderly (language.sites tree) := by
  cases language with
  | entity => exact EntityBuilder.orderly_sites faithful filled undotted
  | flow => exact FlowBuilder.orderly_sites faithful undotted

/-- **Names and what they name.** Where a path and the path of its name are both located, the place of
the name is inside that of the path if and only if the last declaration of the path has a name of
its own. In the flow language it always has one. -/
theorem compile_names_inside (language : Language) (limit : Nat) {source : String} {p : Parse}
    (parsed : Parse.ofSource? language limit source = .ok p)
    (undotted : ∀ s ∈ language.sites p.tree, s.address.Undotted) :
    ∃ m, compile language ⟨false, limit⟩ source = .ok m ∧
      ∀ path whole name, m.locations.value? path = some whole →
        m.locations.value? (path ++ ".name") = some name →
          (whole.contains name = true ↔
            ∃ s, LastOf (·.address.path = path) (language.sites p.tree) s ∧
              s.name.isSome = true) ∧
          (language = .flow → whole.contains name = true) := by
  obtain ⟨tokens, lexed, rfl⟩ := Parse.exists_tokens parsed
  obtain ⟨p, parsed', faithful, _⟩ := Parse.tree_faithful language limit lexed
  cases parsed.symm.trans parsed'
  have filled := Parse.ofTokens_filled language limit (Token.lex_inOrder lexed)
  have orderly := language.orderly_sites faithful filled undotted
  have locations : ((Parse.ofTokens language limit tokens).model language).locations = _ :=
    Model.locations_ofTree language (Parse.ofTokens language limit tokens).tree
  refine ⟨_, compile_plain lexed language limit, ?_⟩
  intro path whole name located named
  rw [locations] at located named
  have inside := orderly.contains_iff located named
  refine ⟨inside, ?_⟩
  rintro rfl
  obtain ⟨s, last⟩ := orderly.exists_last located named
  refine inside.mpr ⟨s, last, ?_⟩
  rw [← last.holds] at named
  exact FlowBuilder.isSome_name_of_located orderly last.mem named

/-- An entity with a body in it. -/
def entityWithBody : String := "entity A \x7b\n  b B \x7b\n    x String\n  \x7d\n\x7d\n"

theorem compile_names_inside_body :
    ∃ p m whole name, Parse.ofSource? .entity 10 entityWithBody = .ok p ∧
      compile .entity ⟨false, 10⟩ entityWithBody = .ok m ∧
      m.locations.value? "entities.A" = some whole ∧
      m.locations.value? "entities.A.name" = some name ∧ whole.contains name = true ∧
      ∃ s, LastOf (·.address.path = "entities.A") (Language.entity.sites p.tree) s ∧
        s.name.isSome = true := by
  obtain ⟨tokens, lexed⟩ : ∃ tokens, Token.lex entityWithBody = .ok tokens :=
    Token.exists_of_isOk (by decide +kernel)
  have parsed := Parse.ofSource?_of_lex lexed .entity 10
  have computed : ((Token.lex entityWithBody).toOption.map fun tokens =>
      let p := Parse.ofTokens .entity 10 tokens
      let m := p.model .entity
      (decide (∀ s ∈ Language.entity.sites p.tree, s.address.Undotted),
        m.locations.value? "entities.A", m.locations.value? "entities.A.name")) =
      some (true, some ⟨0, 37, 1, 1, 5, 2⟩, some ⟨7, 8, 1, 8, 1, 9⟩) := by
    decide +kernel
  rw [lexed] at computed
  obtain ⟨undotted, places⟩ := Prod.mk.inj (Option.some.inj computed)
  obtain ⟨located, named⟩ := Prod.mk.inj places
  obtain ⟨m, compiled, names⟩ := compile_names_inside .entity 10 parsed (of_decide_eq_true undotted)
  cases (compile_plain lexed .entity 10).symm.trans compiled
  have inside := (names "entities.A" _ _ located named).1
  exact ⟨_, _, _, _, parsed, compiled, located, named, by decide, inside.mp (by decide)⟩

/-- An entity and a body of a field of its type. -/
def bodyOverEntity : String :=
  "entity A \x7b\n\x7d\nentity B \x7b\n  a A \x7b\n    x String\n  \x7d\n\x7d\n"

/-- The path of the entity has the place of the body, and the name is not inside it. -/
theorem compile_names_outside :
    ∃ p m, Parse.ofSource? .entity 10 bodyOverEntity = .ok p ∧
      (∀ s ∈ Language.entity.sites p.tree, s.address.Undotted) ∧
      compile .entity ⟨false, 10⟩ bodyOverEntity = .ok m ∧
      ∃ whole name, m.locations.value? "entities.A" = some whole ∧
        m.locations.value? "entities.A.name" = some name ∧ whole.contains name = false := by
  obtain ⟨tokens, lexed⟩ : ∃ tokens, Token.lex bodyOverEntity = .ok tokens :=
    Token.exists_of_isOk (by decide +kernel)
  refine ⟨_, _, Parse.ofSource?_of_lex lexed .entity 10, ?_, compile_plain lexed .entity 10, ?_⟩
  · have computed : ((Token.lex bodyOverEntity).toOption.any fun tokens =>
        decide (∀ s ∈ Language.entity.sites (Parse.ofTokens .entity 10 tokens).tree,
          s.address.Undotted)) = true := by
      decide +kernel
    rw [lexed] at computed
    exact of_decide_eq_true computed
  · have computed : ((Token.lex bodyOverEntity).toOption.map fun tokens =>
        let m := (Parse.ofTokens .entity 10 tokens).model .entity
        (m.locations.value? "entities.A", m.locations.value? "entities.A.name")) =
        some (some ⟨30, 48, 4, 7, 6, 4⟩, some ⟨7, 8, 1, 8, 1, 9⟩) := by
      decide +kernel
    rw [lexed] at computed
    obtain ⟨located, named⟩ := Prod.mk.inj (Option.some.inj computed)
    exact ⟨_, _, located, named, by decide⟩

end EntityFlow
