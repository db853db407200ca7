import EntityFlow.Proofs.Document.Lookups
import EntityFlow.Proofs.Document.NamePlaces
import EntityFlow.Proofs.Grammar.Names

/-!
# The names of sites

Whatever a source declares is called by names that are not empty: the addresses of its sites are
made of names of declarations, of types of fields and of kinds of relationships, and all of these
are words (`Parse.ofTokens_named`).
-/

namespace EntityFlow

/-- The type of a field is not empty. -/
theorem Field.type_ne_empty {n : Node} (named : n.Everywhere Node.Named)
    (hasType : n.hasChild .fieldType = true) : (Field.ofNode n).type ≠ "" := by
  obtain ⟨part, found⟩ := Option.isSome_iff_exists.mp hasType
  have isType := List.find?_some found
  have isPart : part ∈ n.children := List.mem_of_find?_eq_some found
  obtain ⟨id, inside, some⟩ := (named.part isPart).here .id (by
    rw [beq_iff_eq.mp isType]
    rfl)
  rw [Field.ofNode]
  simpa [found, Node.childText, inside] using some

namespace Address

/-- That an address is one of a language, and that no declared name, field type or kind of
relationships in it is empty. -/
structure Proper (language : Language) (a : Address) : Prop where
  language : a.language = language
  names : ∀ name ∈ a.names, name ≠ ""

variable {language : Language} {a : Address} {owner name : String}

theorem Proper.of_name (inLanguage : a.language = language) (own : a.names = [name])
    (some : name ≠ "") : a.Proper language := by
  refine ⟨inLanguage, ?_⟩
  intro other isName
  rw [own] at isName
  rw [List.mem_singleton.mp isName]
  exact some

theorem Proper.of_names (inLanguage : a.language = language) (both : a.names = [owner, name])
    (someOwner : owner ≠ "") (some : name ≠ "") : a.Proper language := by
  refine ⟨inLanguage, ?_⟩
  intro other isName
  rw [both] at isName
  rcases List.mem_cons.mp isName with rfl | last
  · exact someOwner
  · rw [List.mem_singleton.mp last]
    exact some

/-- The names of an address are segments of its path. -/
theorem Proper.isSegment (proper : a.Proper language) (undotted : a.Undotted) :
    ∀ name ∈ a.names, Value.IsSegment name :=
  fun name isName => ⟨proper.names name isName, undotted name isName⟩

end Address

namespace EntityBuilder

variable {tree n : Node} {part : Section} {d : Declaration} {s : Site}

/-- That all fields among some nodes and below them have types. -/
def TypedBelow (ns : List Node) : Prop :=
  ∀ n ∈ Node.subtreesOf ns, n.kind = .field → (Field.ofNode n).type ≠ ""

mutual

theorem proper_of_nestedIn : (ns : List Node) → TypedBelow ns →
    d ∈ Declaration.nestedIn part ns → d.site.address.Proper .entity
  | [], _, member => by
      rw [Declaration.nestedIn] at member
      cases member
  | n :: rest, typed, member => by
      rw [TypedBelow, Node.subtreesOf_cons] at typed
      have typedRest : TypedBelow rest := fun m below => typed m (List.mem_append_right _ below)
      by_cases isField : n.kind = .field
      · rw [Declaration.nestedIn_cons_of_field isField] at member
        rcases List.mem_append.mp member with here | later
        · have inside (m : Node) (below : m ∈ n.subtrees) := typed m (List.mem_append_left _ below)
          exact proper_of_nestedInField n (inside n n.self_mem_subtrees isField)
            (fun m below => inside m (Node.mem_subtrees_of_below below)) here
        · exact proper_of_nestedIn rest typedRest later
      · rw [Declaration.nestedIn_cons_of_ne isField] at member
        exact proper_of_nestedIn rest typedRest member

theorem proper_of_nestedInField : (n : Node) → (Field.ofNode n).type ≠ "" →
    TypedBelow n.children → d ∈ Declaration.nestedInField part n → d.site.address.Proper .entity
  | ⟨k, text, span, parts⟩, hasType, typed, member => by
      rw [Declaration.nestedInField] at member
      exact proper_of_nestedInBody _ hasType parts typed member

theorem proper_of_nestedInBody (field : Field) (hasType : field.type ≠ "") :
    (parts : List Node) → TypedBelow parts →
      d ∈ Declaration.nestedInBody part field parts → d.site.address.Proper .entity
  | [], _, member => by
      rw [Declaration.nestedInBody] at member
      cases member
  | ⟨k, text, span, body⟩ :: rest, typed, member => by
      rw [TypedBelow, Node.subtreesOf_cons] at typed
      by_cases nested : k = .nestedField
      · subst nested
        rw [Declaration.nestedInBody] at member
        rcases List.mem_cons.mp member with rfl | member
        · exact .of_name rfl rfl hasType
        · exact proper_of_nestedIn body (fun m below =>
            typed m (List.mem_append_left _ (Node.mem_subtrees_of_below below))) member
      · rw [Declaration.nestedInBody] at member
        · exact proper_of_nestedInBody field hasType rest
            (fun m below => typed m (List.mem_append_right _ below)) member
        · simp [nested]

end

theorem proper_of_entity (part : Section) (named : n.Named) (declares : n.kind = part.kind)
    (typed : TypedBelow n.children) (member : d ∈ Declaration.entity part n) :
    d.site.address.Proper .entity := by
  unfold Declaration.entity at member
  split at member
  · cases member
  · rename_i name isName
    rcases List.mem_cons.mp member with rfl | member
    · have called : n.kind.calledBy = some part.nameKind := by
        rw [declares]
        cases part <;> rfl
      exact Address.Proper.of_name rfl rfl (named.text_ne_empty called isName)
    · exact proper_of_nestedIn n.children typed member

theorem proper_of_enum (named : n.Named) (declares : n.kind = .enum)
    (member : d ∈ Declaration.enum n) : d.site.address.Proper .entity := by
  unfold Declaration.enum at member
  split at member
  · cases member
  · rename_i name isName
    rw [List.mem_singleton.mp member]
    exact Address.Proper.of_name rfl rfl (named.text_ne_empty (by rw [declares]; rfl) isName)

theorem proper_of_relationships (named : n.Named) (declares : n.kind = .relationships)
    (member : d ∈ Declaration.relationships n) : d.site.address.Proper .entity := by
  obtain ⟨kind, isKind, some⟩ := named .relationshipType (by rw [declares]; rfl)
  obtain ⟨m, _, member⟩ := List.mem_flatMap.mp member
  unfold Declaration.relationship at member
  split at member
  · cases member
  · rw [List.mem_singleton.mp member]
    refine Address.Proper.of_name rfl rfl ?_
    rw [Node.childText, isKind]
    exact some

theorem proper_of_service (named : n.Everywhere Node.Named)
    (called : n.kind.calledBy = some .serviceName) (member : d ∈ Declaration.service n) :
    d.site.address.Proper .entity := by
  unfold Declaration.service at member
  split at member
  · cases member
  · rename_i owner isName
    have someOwner := named.here.text_ne_empty called isName
    rcases List.mem_cons.mp member with rfl | member
    · exact Address.Proper.of_name rfl rfl someOwner
    · obtain ⟨m, isMethod, member⟩ := List.mem_flatMap.mp member
      obtain ⟨isPart, kind⟩ := List.mem_filter.mp isMethod
      unfold Declaration.method at member
      split at member
      · cases member
      · rename_i name isName
        rw [List.mem_singleton.mp member]
        have some := (named.part isPart).here.text_ne_empty
          (by rw [beq_iff_eq.mp kind]; rfl) isName
        exact Address.Proper.of_names rfl rfl someOwner some

/-- The address of a site is one of the language, with names that are not empty. -/
theorem proper_of_mem_sites (named : tree.Everywhere Node.Named) (typed : TypedBelow tree.children)
    (member : s ∈ sites tree) : s.address.Proper .entity := by
  obtain ⟨d, declared, rfl⟩ := List.mem_map.mp member
  obtain ⟨n, top, member⟩ := List.mem_flatMap.mp declared
  have inside := named.part top
  have typedInside : TypedBelow n.children := fun m below =>
    typed m (Node.subtreesOf_subset_of_mem _ (Node.mem_subtreesOf_self top)
      (Node.mem_subtrees_of_below below))
  unfold Declaration.topLevel at member
  split at member <;> rename_i kind
  · exact proper_of_entity .entities inside.here kind typedInside member
  · exact proper_of_entity .events inside.here kind typedInside member
  · exact proper_of_entity .inputs inside.here kind typedInside member
  · exact proper_of_enum inside.here kind member
  · exact proper_of_relationships inside.here kind member
  · exact proper_of_service inside (by rw [kind]; rfl) member
  · exact proper_of_service inside (by rw [kind]; rfl) member
  · cases member

end EntityBuilder

namespace FlowBuilder

variable {tree n : Node} {s : Site} {owner : String}

theorem proper_of_system (named : n.Named) (declares : n.kind = .flowSystem)
    (someOwner : owner ≠ "") (member : s ∈ sitesOfSystem owner n) : s.address.Proper .flow := by
  unfold sitesOfSystem at member
  split at member
  · cases member
  · rename_i name isName
    rw [List.mem_singleton.mp member]
    exact Address.Proper.of_names rfl rfl someOwner
      (named.text_ne_empty (by rw [declares]; rfl) isName)

theorem proper_of_start (named : n.Named) (declares : n.kind = .flowStart)
    (someOwner : owner ≠ "") (member : s ∈ sitesOfStart owner n) : s.address.Proper .flow := by
  unfold sitesOfStart at member
  split at member
  · cases member
  · rename_i name isName
    rw [List.mem_singleton.mp member]
    exact Address.Proper.of_names rfl rfl someOwner
      (named.text_ne_empty (by rw [declares]; rfl) isName)

/-- The address of a site is one of the language, with names that are not empty. -/
theorem proper_of_mem_sites (named : tree.Everywhere Node.Named) (member : s ∈ sites tree) :
    s.address.Proper .flow := by
  obtain ⟨n, isFlow, member⟩ := List.mem_flatMap.mp member
  obtain ⟨top, kind⟩ := List.mem_filter.mp isFlow
  have inside := named.part top
  unfold sitesOfFlow at member
  split at member
  · cases member
  · rename_i flow isName
    have someFlow := inside.here.text_ne_empty (by rw [beq_iff_eq.mp kind]; rfl) isName
    rcases List.mem_cons.mp member with rfl | member
    · exact Address.Proper.of_name rfl rfl someFlow
    · obtain ⟨part, isPart, member⟩ := List.mem_flatMap.mp member
      unfold sitesOfPart at member
      split at member <;> rename_i kind
      · obtain ⟨system, isSystem, member⟩ := List.mem_flatMap.mp member
        obtain ⟨among, kind⟩ := List.mem_filter.mp isSystem
        exact proper_of_system ((inside.part isPart).part among).here (beq_iff_eq.mp kind) someFlow
          member
      · exact proper_of_start (inside.part isPart).here kind someFlow member
      · cases member

end FlowBuilder

/-- The sites of a source have addresses of its language, with names that are not empty. -/
theorem Parse.ofTokens_sites_proper (language : Language) (limit : Nat) {tokens : List Token}
    (ordered : Token.InOrder 0 tokens) (spelled : ∀ t ∈ tokens, t.Spelled) :
    ∀ s ∈ language.sites (Parse.ofTokens language limit tokens).tree,
      s.address.Proper language := by
  intro s member
  have named := Parse.ofTokens_named language limit ordered spelled
  cases language with
  | entity =>
      refine EntityBuilder.proper_of_mem_sites named ?_ member
      -- a nested body is called by the type of its field, and every field has one
      intro n below isField
      have inside := Node.mem_subtrees_of_below below
      obtain ⟨_, _, shaped⟩ := Parse.ofTokens_shaped .entity limit ordered.ended
      have hasType := (shaped n inside).hasChild (k := .fieldType) (by rw [isField]; decide)
      exact Field.type_ne_empty (fun m deeper => named m (Node.subtrees_subset _ inside deeper))
        hasType
  | flow => exact FlowBuilder.proper_of_mem_sites named member

end EntityFlow
