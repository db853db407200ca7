import EntityFlow.Proofs.Document.FlowSites
import EntityFlow.Proofs.Tree.Subtrees

/-!
# Where sites stand

A site is where its declaration is in the tree (`EntityBuilder.stands`, `FlowBuilder.stands`). A
declaration with a name has it as a part. The body of a field, at whatever depth, lies in a field of
a declaration at the top level, beside the name of this declaration. A relationship is a part of its
block. In the flow language only flows have names.
-/

namespace EntityFlow

/-! ## Sites of the entity language -/

namespace EntityBuilder

/-- Where in a tree a site of the entity language is. -/
inductive Stands (tree : Node) : Site → Prop
  | entity {part : Section} {n name : Node} (top : n ∈ tree.children)
      (isName : n.child part.nameKind = some name) :
      Stands tree (.named (.entity part name.text) n name rfl)
  /-- Anything else that has a name. -/
  | named {address : Address} {n name : Node} (other : address.isRelationship = false)
      (below : n ∈ tree.subtrees) (isPart : name ∈ n.children)
      (noEntity : ∀ part type, address ≠ .entity part type) :
      Stands tree (.named address n name other)
  /-- A body at any depth of a field of a top-level node. -/
  | body {part : Section} {type : String} {n field body : Node} (top : n ∈ tree.children)
      (isPart : field ∈ n.children) (isField : field.kind = .field) (below : body ∈ field.subtrees) :
      Stands tree (.nameless (.entity part type) body)
  | relationship {block n : Node} {r : Relationship} (top : block ∈ tree.children)
      (isPart : n ∈ block.children) (isRelationship : n.kind = .relationship)
      (known : relationship? ((block.childText .relationshipType).getD "") n = some r) :
      Stands tree (.nameless
        (.relationship ((block.childText .relationshipType).getD "") r.key) n)

section Members

variable {part : Section} {d : Declaration}

/-- That a declaration is that of a body among some nodes and the nodes below them. -/
def BodyAmong (part : Section) (ns : List Node) (d : Declaration) : Prop :=
  ∃ type, ∃ body ∈ Node.subtreesOf ns, d.site = .nameless (.entity part type) body

theorem BodyAmong.of_subset {ms ns : List Node} (body : BodyAmong part ms d) (subset : ms ⊆ ns) :
    BodyAmong part ns d := by
  obtain ⟨type, body, below, known⟩ := body
  exact ⟨type, body, Node.subtreesOf_subset subset below, known⟩

mutual

theorem exists_field_of_nestedIn : (ns : List Node) → d ∈ Declaration.nestedIn part ns →
    ∃ field ∈ ns, field.kind = .field ∧ BodyAmong part field.children d
  | [], member => by
      rw [Declaration.nestedIn] at member
      cases member
  | n :: rest, member => by
      have later (member : d ∈ Declaration.nestedIn part rest) :
          ∃ field ∈ n :: rest, field.kind = .field ∧ BodyAmong part field.children d := by
        obtain ⟨field, inner, found⟩ := exists_field_of_nestedIn rest member
        exact ⟨field, List.mem_cons_of_mem _ inner, found⟩
      by_cases isField : n.kind = .field
      · rw [Declaration.nestedIn_cons_of_field isField] at member
        rcases List.mem_append.mp member with here | member
        · exact ⟨n, List.mem_cons_self, isField, bodyAmong_of_nestedInField n here⟩
        · exact later member
      · rw [Declaration.nestedIn_cons_of_ne isField] at member
        exact later member

theorem bodyAmong_of_nestedInField : (n : Node) → d ∈ Declaration.nestedInField part n →
    BodyAmong part n.children d
  | ⟨k, text, span, parts⟩, member => by
      rw [Declaration.nestedInField] at member
      exact bodyAmong_of_nestedInBody _ parts member

theorem bodyAmong_of_nestedInBody (field : Field) : (parts : List Node) →
    d ∈ Declaration.nestedInBody part field parts → BodyAmong part parts d
  | [], member => by
      rw [Declaration.nestedInBody] at member
      cases member
  | ⟨k, text, span, body⟩ :: rest, member => by
      by_cases nested : k = .nestedField
      · subst nested
        rw [Declaration.nestedInBody] at member
        rcases List.mem_cons.mp member with rfl | member
        · exact ⟨field.type, _, Node.mem_subtreesOf_self List.mem_cons_self, rfl⟩
        · -- a body inside the body is in a field of it
          obtain ⟨inner, isPart, _, type, deeper, below, known⟩ :=
            exists_field_of_nestedIn body member
          have inBody : deeper ∈ Node.subtreesOf body := Node.mem_subtreesOf.mpr
            ⟨inner, isPart, Node.mem_subtrees_of_below below⟩
          exact ⟨type, deeper, Node.mem_subtreesOf.mpr
            ⟨_, List.mem_cons_self, Node.mem_subtrees_of_below inBody⟩, known⟩
      · rw [Declaration.nestedInBody] at member
        · exact (bodyAmong_of_nestedInBody field rest member).of_subset
            (List.subset_cons_self _ _)
        · simp [nested]

end

variable {tree n : Node}

theorem stands_of_entity (top : n ∈ tree.children) (member : d ∈ Declaration.entity part n) :
    Stands tree d.site := by
  unfold Declaration.entity at member
  split at member
  · cases member
  · rename_i name isName
    rcases List.mem_cons.mp member with rfl | member
    · exact .entity top isName
    · obtain ⟨field, isPart, isField, type, body, below, known⟩ :=
        exists_field_of_nestedIn n.children member
      rw [known]
      exact .body top isPart isField (Node.mem_subtrees_of_below below)

theorem stands_of_enum (top : n ∈ tree.children) (member : d ∈ Declaration.enum n) :
    Stands tree d.site := by
  unfold Declaration.enum at member
  split at member
  · cases member
  · rename_i name isName
    rw [List.mem_singleton.mp member]
    refine .named rfl (Node.mem_subtrees_of_part top) (List.mem_of_find?_eq_some isName) ?_
    intro part type same
    cases same

theorem stands_of_relationships (top : n ∈ tree.children)
    (member : d ∈ Declaration.relationships n) : Stands tree d.site := by
  obtain ⟨m, inner, member⟩ := List.mem_flatMap.mp member
  obtain ⟨isPart, isRelationship⟩ := List.mem_filter.mp inner
  unfold Declaration.relationship at member
  split at member
  · cases member
  · rename_i r known
    rw [List.mem_singleton.mp member]
    exact .relationship top isPart (beq_iff_eq.mp isRelationship) known

theorem stands_of_method {owner : String} (below : n ∈ tree.subtrees)
    (member : d ∈ Declaration.method owner n) : Stands tree d.site := by
  unfold Declaration.method at member
  split at member
  · cases member
  · rename_i name isName
    rw [List.mem_singleton.mp member]
    refine .named rfl below (List.mem_of_find?_eq_some isName) ?_
    intro part type same
    cases same

theorem stands_of_service (top : n ∈ tree.children) (member : d ∈ Declaration.service n) :
    Stands tree d.site := by
  have below : n ∈ tree.subtrees := Node.mem_subtrees_of_part top
  unfold Declaration.service at member
  split at member
  · cases member
  · rename_i name isName
    rcases List.mem_cons.mp member with rfl | member
    · refine .named rfl below (List.mem_of_find?_eq_some isName) ?_
      intro part type same
      cases same
    · obtain ⟨m, isMethod, member⟩ := List.mem_flatMap.mp member
      have isPart := (List.mem_filter.mp isMethod).1
      exact stands_of_method
        (Node.subtrees_subset tree below (Node.mem_subtrees_of_part isPart)) member

/-- Every site stands somewhere in the tree. -/
theorem stands {s : Site} (member : s ∈ sites tree) : Stands tree s := by
  obtain ⟨d, declared, rfl⟩ := List.mem_map.mp member
  obtain ⟨n, top, member⟩ := List.mem_flatMap.mp declared
  unfold Declaration.topLevel at member
  split at member
  · exact stands_of_entity top member
  · exact stands_of_entity top member
  · exact stands_of_entity top member
  · exact stands_of_enum top member
  · exact stands_of_relationships top member
  · exact stands_of_service top member
  · exact stands_of_service top member
  · cases member

end Members

end EntityBuilder

/-! ## Sites of the flow language -/

namespace FlowBuilder

/-- Where in a tree a site of the flow language is. Systems and starts have no names. -/
inductive Stands (tree : Node) : Site → Prop
  | flow {n name : Node} (top : n ∈ tree.children) (isPart : name ∈ n.children) :
      Stands tree (.named (.flow name.text) n name rfl)
  | system (owner name : String) (n : Node) : Stands tree (.nameless (.system owner name) n)
  | start (owner name : String) (n : Node) : Stands tree (.nameless (.start owner name) n)

variable {tree n : Node} {s t : Site} {owner : String}

theorem stands_of_system (member : s ∈ sitesOfSystem owner n) : Stands tree s := by
  unfold sitesOfSystem at member
  split at member
  · cases member
  · rw [List.mem_singleton.mp member]
    exact .system _ _ _

theorem stands_of_start (member : s ∈ sitesOfStart owner n) : Stands tree s := by
  unfold sitesOfStart at member
  split at member
  · cases member
  · rw [List.mem_singleton.mp member]
    exact .start _ _ _

/-- Every site stands somewhere in the tree. -/
theorem stands (member : s ∈ sites tree) : Stands tree s := by
  obtain ⟨n, isFlow, member⟩ := List.mem_flatMap.mp member
  have top := (List.mem_filter.mp isFlow).1
  unfold sitesOfFlow at member
  split at member
  · cases member
  · rename_i name isName
    rcases List.mem_cons.mp member with rfl | member
    · exact .flow top (List.mem_of_find?_eq_some isName)
    · obtain ⟨part, _, member⟩ := List.mem_flatMap.mp member
      unfold sitesOfPart at member
      split at member
      · obtain ⟨system, _, member⟩ := List.mem_flatMap.mp member
        exact stands_of_system member
      · exact stands_of_start member
      · cases member

/-- Nothing in the flow language is a relationship. -/
theorem Stands.isRelationship (stands : Stands tree s) : s.address.isRelationship = false := by
  cases stands <;> rfl

/-- Only flows have names, and nothing else has the address of one. -/
theorem Stands.isSome_name (stands : Stands tree s) (stands' : Stands tree t)
    (same : t.address = s.address) (isNamed : t.name.isSome = true) : s.name.isSome = true := by
  cases stands' with
  | system => cases isNamed
  | start => cases isNamed
  | flow =>
      cases stands with
      | flow => rfl
      | system => cases same
      | start => cases same

end FlowBuilder

end EntityFlow
