import EntityFlow.Proofs.Document.Lookups
import EntityFlow.Proofs.Document.NamePlaces
import EntityFlow.Proofs.Document.RelationshipKeys
import EntityFlow.Proofs.Document.SiteNames

/-!
# What locations point to

The locations of a model are the paths of what its source declares, and of the names. What stays in
the document, though, is of every name the last declaration. A record of its own is never lost this
way, as the last one takes its place. But the methods of a service go with the service, and the
systems and starts of a flow with the flow: where the last declaration of the owner has no method of
a name, a location is left that leads nowhere. And so is that of a relationship whose key has a dot,
as a path is split at dots (`Address.RetainedIn`). All other locations resolve
(`compile_locations_resolve`).
-/

namespace EntityFlow

/-- That what a tree declares under an address is still in the document in the end, where its path
leads to. Past a dot in the key of a relationship the path leads into the record of another one,
whose key is the part in front of the dot, if there is such a relationship. -/
def Address.RetainedIn (tree : Node) : Address → Prop
  | .entity _ _ | .enum _ | .service _ | .flow _ => True
  | .method owner name =>
      ∃ s, LastOf (·.name = owner) (Service.declaredIn tree.children) s ∧ name ∈ s.methods.keys
  | .relationship kind key =>
      '.' ∉ key.toList ∨ ∃ front back r, key = front ++ "." ++ back ∧ '.' ∉ front.toList ∧
        LastOf (·.key = front) (Relationship.declaredUnder kind tree.children) r ∧
          (r.toValue.lookup? back).isSome = true
  | .system owner name =>
      ∃ f, LastOf (·.name = owner) (Flow.declaredIn tree.children) f ∧ name ∈ f.systems.keys
  | .start owner name =>
      ∃ f, LastOf (·.name = owner) (Flow.declaredIn tree.children) f ∧ name ∈ f.starts.keys

theorem OrderedMap.isSome_value?_iff {α : Type} {m : OrderedMap α} {key : String} :
    (m.value? key).isSome = true ↔ key ∈ m.keys := by
  rw [← not_iff_not, ← value?_eq_none_iff]
  simp

/-- What is inside an owner is there if the last owner of the name has it. -/
theorem OrderedMap.isSome_inner_iff {R S : Type} {name : R → String} {owners : List R}
    {parts : R → OrderedMap S} {toValue : S → Value} {owner key : String} :
    (((ofEntries (owners.map fun r => (name r, r))).value? owner).bind fun r =>
        ((parts r).value? key).map toValue).isSome = true ↔
      ∃ r, LastOf (name · = owner) owners r ∧ key ∈ (parts r).keys := by
  constructor
  · intro found
    obtain ⟨v, known⟩ := Option.isSome_iff_exists.mp found
    obtain ⟨r, isOwner, inside⟩ := Option.bind_eq_some_iff.mp known
    obtain ⟨x, isPart, _⟩ := Option.map_eq_some_iff.mp inside
    refine ⟨r, value?_ofEntries_eq_some_iff.mp isOwner, isSome_value?_iff.mp ?_⟩
    rw [isPart]
    rfl
  · rintro ⟨r, last, inside⟩
    rw [value?_ofEntries_eq_some_iff.mpr last, Option.bind_some, Option.isSome_map]
    exact isSome_value?_iff.mpr inside

namespace EntityBuilder

variable {tree : Node} {s : Site}

/-- Under the address of a declared record there is one. -/
theorem isSome_record?_of_isRecord (member : s ∈ sites tree)
    (isRecord : s.address.isRecord = true) :
    ((ofTree tree).document.record? s.address).isSome = true := by
  obtain ⟨d, declared, rfl⟩ := List.mem_map.mp member
  obtain ⟨d', last⟩ := exists_lastOf (p := (·.site.address = d.site.address)) ⟨d, declared, rfl⟩
  have inLanguage : d.site.address.language = .entity := by
    generalize d.site.address = a at isRecord
    cases a <;> first | rfl | cases isRecord
  rw [← EntityDocument.atKeys?_keys _ inLanguage, atKeys?_ofTree tree isRecord,
    Declaration.value?_recordsIn_last last]
  rfl

/-- The path of a relationship whose key has a dot leads into another relationship. -/
theorem isSome_lookup?_dotted {kind front : String}
    (plain : (Address.relationship kind front).Plain) (back : String) :
    ((ofTree tree).document.toValue.lookup?
        (Address.relationship kind (front ++ "." ++ back)).path).isSome = true ↔
      ∃ r, LastOf (·.key = front) (Relationship.declaredUnder kind tree.children) r ∧
        (r.toValue.lookup? back).isSome = true := by
  have path : (Address.relationship kind (front ++ "." ++ back)).path =
      (Address.relationship kind front).path ++ "." ++ back := by
    simp [Address.path, String.append_assoc]
  have stored {r : Relationship} : ((ofTree tree).document.relationshipsOf kind).value? front =
      some r ↔ LastOf (·.key = front) (Relationship.declaredUnder kind tree.children) r := by
    rw [relationshipsOf_ofTree]
    exact OrderedMap.value?_ofEntries_eq_some_iff
  rw [path, Value.lookup?_append, EntityDocument.lookup?_path _ rfl plain,
    EntityDocument.record?]
  constructor
  · intro found
    obtain ⟨v, known⟩ := Option.isSome_iff_exists.mp found
    obtain ⟨record, isRecord, inside⟩ := Option.bind_eq_some_iff.mp known
    obtain ⟨r, isStored, rfl⟩ := Option.map_eq_some_iff.mp isRecord
    exact ⟨r, stored.mp isStored, Option.isSome_iff_exists.mpr ⟨v, inside⟩⟩
  · rintro ⟨r, last, inside⟩
    rw [stored.mpr last]
    exact inside

/-- The key of a relationship begins with its kind. -/
theorem exists_rest_of_key {kind key : String} (member : s ∈ sites tree)
    (address : s.address = .relationship kind key) : ∃ rest, key = kind ++ "_" ++ rest := by
  cases stands member with
  | entity => cases address
  | @named a _ _ other =>
      have same : a = .relationship kind key := address
      rw [same] at other
      cases other
  | body => cases address
  | @relationship block n r _ _ _ known =>
      cases address
      unfold relationship? at known
      split at known
      · rename_i source target _ _
        cases known
        refine ⟨(RelationshipEnd.ofNode source).definition ++ "_" ++
          (RelationshipEnd.ofNode target).definition, ?_⟩
        simp only [Relationship.key, String.append_assoc]
      · cases known

/-- What stands in front of a dot in such a key is not empty. -/
theorem front_ne_empty {kind front back rest : String} (isKind : Value.IsSegment kind)
    (split : kind ++ "_" ++ rest = front ++ "." ++ back) : front ≠ "" := by
  rintro rfl
  have chars := congrArg String.toList split
  have some : kind.toList ≠ [] := by
    rw [Ne, String.toList_eq_nil_iff]
    exact isKind.1
  obtain ⟨c, cs, known⟩ := List.exists_cons_of_ne_nil some
  -- the kind would begin with the dot
  have dot : c = '.' := by
    simp only [String.toList_append, known] at chars
    exact (List.cons.inj chars).1
  refine isKind.2 ?_
  rw [known, dot]
  exact List.mem_cons_self

/-- The path of a relationship leads somewhere if and only if its key has no dot or the part in
front of the first dot is the key of another relationship, with such a part in its record. -/
theorem isSome_lookup?_relationship {kind key : String} (member : s ∈ sites tree)
    (address : s.address = .relationship kind key) (isKind : Value.IsSegment kind) :
    ((ofTree tree).document.toValue.lookup? s.address.path).isSome = true ↔
      s.address.RetainedIn tree := by
  obtain ⟨rest, begins⟩ := exists_rest_of_key member address
  by_cases dotted : '.' ∈ key.toList
  · -- the path is split at every dot, so the key is looked up in two parts at least
    rw [address, Address.RetainedIn, or_iff_right (not_not_intro dotted)]
    constructor
    · intro found
      obtain ⟨front, back, split, free⟩ := List.eq_append_cons_of_mem dotted
      have isSplit : key = String.ofList front ++ "." ++ String.ofList back := by
        rw [← String.toList_inj, split]
        simp [String.toList_append]
      have isFront : Value.IsSegment (String.ofList front) :=
        ⟨front_ne_empty isKind (begins.symm.trans isSplit), by simpa using free⟩
      rw [isSplit] at found
      obtain ⟨r, last, inside⟩ :=
        (isSome_lookup?_dotted (Address.plain_relationship isKind isFront) _).mp found
      exact ⟨_, _, r, isSplit, isFront.2, last, inside⟩
    · rintro ⟨front, back, r, isSplit, free, last, inside⟩
      have isFront : Value.IsSegment front :=
        ⟨front_ne_empty isKind (begins.symm.trans isSplit), free⟩
      rw [isSplit]
      exact (isSome_lookup?_dotted (Address.plain_relationship isKind isFront) _).mpr
        ⟨r, last, inside⟩
  · have isKey : Value.IsSegment key := by
      refine ⟨?_, dotted⟩
      rw [begins]
      intro empty
      have front := (String.append_eq_empty_iff.mp empty).1
      exact absurd (String.append_eq_empty_iff.mp front).2 (by decide)
    have stored := isSome_record?_of_isRecord member (by rw [address]; rfl)
    rw [address] at stored ⊢
    rw [EntityDocument.lookup?_path _ rfl (Address.plain_relationship isKind isKey)]
    exact iff_of_true stored (Or.inl dotted)

/-- The path of a site leads to its record. -/
theorem lookup?_site (tree : Node) (undotted : s.address.Undotted)
    (proper : s.address.Proper .entity) (other : s.address.isRelationship = false) :
    (ofTree tree).document.toValue.lookup? s.address.path =
      (ofTree tree).document.record? s.address :=
  EntityDocument.lookup?_path _ proper.language
    (Address.plain_of_names (proper.isSegment undotted) other)

/-- A path leads somewhere if and only if what is declared there is retained. -/
theorem isSome_lookup?_iff (member : s ∈ sites tree) (undotted : s.address.Undotted)
    (proper : s.address.Proper .entity) :
    ((ofTree tree).document.toValue.lookup? s.address.path).isSome = true ↔
      s.address.RetainedIn tree := by
  have kept (isRecord : s.address.isRecord = true) (other : s.address.isRelationship = false) :
      ((ofTree tree).document.toValue.lookup? s.address.path).isSome = true := by
    rw [lookup?_site tree undotted proper other]
    exact isSome_record?_of_isRecord member isRecord
  cases address : s.address with
  | relationship kind key =>
      rw [← address]
      refine isSome_lookup?_relationship member address (proper.isSegment undotted kind ?_)
      rw [address]
      exact List.mem_singleton_self kind
  | method owner name =>
      -- the service is that of its last declaration, and so are its methods
      have found := lookup?_site tree undotted proper (by rw [address]; rfl)
      rw [address] at found
      rw [found, EntityDocument.record?, services_ofTree]
      exact OrderedMap.isSome_inner_iff
  | entity =>
      rw [address] at kept
      exact iff_of_true (kept rfl rfl) trivial
  | enum =>
      rw [address] at kept
      exact iff_of_true (kept rfl rfl) trivial
  | service =>
      rw [address] at kept
      exact iff_of_true (kept rfl rfl) trivial
  | _ => cases address ▸ proper.language

/-- Behind the path of a site with a name there is a name if and only if there is a record. -/
theorem isSome_lookup?_name (undotted : s.address.Undotted) (proper : s.address.Proper .entity)
    (isNamed : s.name.isSome = true) :
    ((ofTree tree).document.toValue.lookup? (s.address.path ++ ".name")).isSome =
      ((ofTree tree).document.toValue.lookup? s.address.path).isSome := by
  have other := Site.isRelationship_of_named isNamed
  refine Value.isSome_lookup?_name fun record found => ?_
  rw [lookup?_site tree undotted proper other] at found
  exact EntityDocument.isNamed_of_record? found other

end EntityBuilder

namespace FlowBuilder

variable {tree : Node} {s : Site}

/-- Nothing in a flow has the address of a flow. -/
theorem address_ne_flow {owner name : String} {part : Node} (member : s ∈ sitesOfPart owner part) :
    s.address ≠ .flow name := by
  intro isFlow
  unfold sitesOfPart at member
  split at member
  · obtain ⟨system, _, member⟩ := List.mem_flatMap.mp member
    unfold sitesOfSystem at member
    split at member
    · cases member
    · rw [List.mem_singleton.mp member] at isFlow
      cases isFlow
  · unfold sitesOfStart at member
    split at member
    · cases member
    · rw [List.mem_singleton.mp member] at isFlow
      cases isFlow
  · cases member

/-- What has the address of a flow is one. -/
theorem exists_of_address_flow {name : String} (member : s ∈ sites tree)
    (address : s.address = .flow name) : ∃ f ∈ Flow.declaredIn tree.children, f.name = name := by
  obtain ⟨n, isFlow, member⟩ := List.mem_flatMap.mp member
  unfold sitesOfFlow at member
  split at member
  · cases member
  · rename_i part isName
    rcases List.mem_cons.mp member with rfl | member
    · cases address
      refine ⟨Flow.ofDeclaration n part.text, List.mem_filterMap.mpr ⟨n, isFlow, ?_⟩, rfl⟩
      rw [isName]
      rfl
    · -- systems and starts have other addresses
      obtain ⟨_, _, member⟩ := List.mem_flatMap.mp member
      exact absurd address (address_ne_flow member)

/-- The path of a site leads to its record. -/
theorem lookup?_site (member : s ∈ sites tree) (undotted : s.address.Undotted)
    (proper : s.address.Proper .flow) :
    (ofTree tree).document.toValue.lookup? s.address.path =
      (ofTree tree).document.record? s.address :=
  FlowDocument.lookup?_path _ proper.language
    (Address.plain_of_names (proper.isSegment undotted) (stands member).isRelationship)

/-- A path leads somewhere if and only if what is declared there is retained. -/
theorem isSome_lookup?_iff (all : tree.AllInPlace) (member : s ∈ sites tree)
    (undotted : s.address.Undotted) (proper : s.address.Proper .flow) :
    ((ofTree tree).document.toValue.lookup? s.address.path).isSome = true ↔
      s.address.RetainedIn tree := by
  rw [lookup?_site member undotted proper]
  cases address : s.address with
  | flow name =>
      rw [FlowDocument.record?, flows_ofTree all, Option.isSome_map, OrderedMap.isSome_value?_iff,
        OrderedMap.mem_keys_ofEntries]
      refine iff_of_true ?_ trivial
      obtain ⟨f, declared, rfl⟩ := exists_of_address_flow member address
      exact List.mem_map.mpr ⟨f.entry, List.mem_map_of_mem declared, rfl⟩
  | system owner name =>
      rw [FlowDocument.record?, flows_ofTree all]
      exact OrderedMap.isSome_inner_iff
  | start owner name =>
      rw [FlowDocument.record?, flows_ofTree all]
      exact OrderedMap.isSome_inner_iff
  | _ => cases address ▸ proper.language

/-- Behind the path of a site there is a name if and only if there is a record. -/
theorem isSome_lookup?_name (member : s ∈ sites tree) (undotted : s.address.Undotted)
    (proper : s.address.Proper .flow) :
    ((ofTree tree).document.toValue.lookup? (s.address.path ++ ".name")).isSome =
      ((ofTree tree).document.toValue.lookup? s.address.path).isSome := by
  refine Value.isSome_lookup?_name fun record found => ?_
  rw [lookup?_site member undotted proper] at found
  exact FlowDocument.isNamed_of_record? found

end FlowBuilder

/-! ## Both languages -/

/-- What is recorded of a site leads somewhere if and only if what is declared there is retained. -/
theorem Parse.isSome_lookup?_iff (language : Language) (limit : Nat) {tokens : List Token}
    (ordered : Token.InOrder 0 tokens) (spelled : ∀ t ∈ tokens, t.Spelled) {s : Site}
    (member : s ∈ language.sites (Parse.ofTokens language limit tokens).tree)
    (undotted : s.address.Undotted) {path : String} (recorded : path ∈ s.entries.map (·.1)) :
    ((Model.ofTree language (Parse.ofTokens language limit tokens).tree).document.lookup?
        path).isSome = true ↔
      s.address.RetainedIn (Parse.ofTokens language limit tokens).tree := by
  have proper := Parse.ofTokens_sites_proper language limit ordered spelled s member
  cases language with
  | entity =>
      have whole := EntityBuilder.isSome_lookup?_iff member undotted proper
      rcases Site.mem_entries_key.mp recorded with rfl | ⟨isNamed, rfl⟩
      · exact whole
      · rw [← whole]
        exact iff_of_eq (congrArg (· = true)
          (EntityBuilder.isSome_lookup?_name undotted proper isNamed))
  | flow =>
      have whole := FlowBuilder.isSome_lookup?_iff (Parse.allInPlace limit ordered.ended) member
        undotted proper
      rcases Site.mem_entries_key.mp recorded with rfl | ⟨_, rfl⟩
      · exact whole
      · rw [← whole]
        exact iff_of_eq (congrArg (· = true)
          (FlowBuilder.isSome_lookup?_name member undotted proper))

/-- **A location resolves if and only if what it locates is retained.** The paths of a model are
those of what the source declares and of the names. If no declared name, field type or kind of
relationships has a dot, then both lead to a part of the document if and only if the document has
not lost what is declared: an entity, an enum, a service or a flow is always there, and a method, a
system or a start if and only if the last declaration with the name of its owner has it. -/
theorem compile_locations_resolve (language : Language) (limit : Nat) {source : String} {p : Parse}
    (parsed : Parse.ofSource? language limit source = .ok p)
    (undotted : ∀ s ∈ language.sites p.tree, s.address.Undotted) :
    ∃ m, compile language ⟨false, limit⟩ source = .ok m ∧
      (∀ s ∈ language.sites p.tree, ∀ path ∈ s.entries.map (·.1),
        path ∈ m.locations.keys ∧
          ((m.document.lookup? path).isSome = true ↔ s.address.RetainedIn p.tree)) ∧
      ((∀ path ∈ m.locations.keys, (m.document.lookup? path).isSome = true) ↔
        ∀ s ∈ language.sites p.tree, s.address.RetainedIn p.tree) := by
  obtain ⟨tokens, lexed, rfl⟩ := Parse.exists_tokens parsed
  have resolves {s : Site} (member : s ∈ language.sites (Parse.ofTokens language limit tokens).tree)
      {path : String} (recorded : path ∈ s.entries.map (·.1)) :
      (((Parse.ofTokens language limit tokens).model language).document.lookup?
          path).isSome = true ↔
        s.address.RetainedIn (Parse.ofTokens language limit tokens).tree :=
    Parse.isSome_lookup?_iff language limit (Token.lex_inOrder lexed) (Token.lex_spelled lexed)
      member (undotted s member) recorded
  have located {path : String} :
      path ∈ ((Parse.ofTokens language limit tokens).model language).locations.keys ↔
        ∃ s ∈ language.sites (Parse.ofTokens language limit tokens).tree,
          path ∈ s.entries.map (·.1) := by
    have locations : ((Parse.ofTokens language limit tokens).model language).locations = _ :=
      Model.locations_ofTree language (Parse.ofTokens language limit tokens).tree
    rw [locations, Site.locations, OrderedMap.mem_keys_ofEntries, List.map_flatMap,
      List.mem_flatMap]
  refine ⟨_, compile_plain lexed language limit, ?_, ?_, ?_⟩
  · intro s member path recorded
    exact ⟨located.mpr ⟨s, member, recorded⟩, resolves member recorded⟩
  · intro all s member
    have recorded : s.address.path ∈ s.entries.map (·.1) := Site.mem_entries_key.mpr (Or.inl rfl)
    exact (resolves member recorded).mp (all _ (located.mpr ⟨s, member, recorded⟩))
  · intro retained path known
    obtain ⟨s, member, recorded⟩ := located.mp known
    exact (resolves member recorded).mpr (retained s member)

/-- A service that is declared twice, the second time with the method of the first one. -/
def serviceExtended : String :=
  "service S for (A) \x7b\n  m()\n\x7d\nservice S for (A) \x7b\n  n()\n  m()\n\x7d\n"

/-- All locations resolve, and so nothing of the first declaration is lost. -/
theorem compile_locations_resolve_extended :
    ∃ p m, Parse.ofSource? .entity 10 serviceExtended = .ok p ∧
      compile .entity ⟨false, 10⟩ serviceExtended = .ok m ∧
      (∀ path ∈ m.locations.keys, (m.document.lookup? path).isSome = true) ∧
      ∀ s ∈ Language.entity.sites p.tree, s.address.RetainedIn p.tree := by
  obtain ⟨tokens, lexed⟩ : ∃ tokens, Token.lex serviceExtended = .ok tokens :=
    Token.exists_of_isOk (by decide +kernel)
  have parsed := Parse.ofSource?_of_lex lexed .entity 10
  have computed : ((Token.lex serviceExtended).toOption.map fun tokens =>
      let p := Parse.ofTokens .entity 10 tokens
      let m := p.model .entity
      (decide (∀ s ∈ Language.entity.sites p.tree, s.address.Undotted),
        decide (∀ path ∈ m.locations.keys, (m.document.lookup? path).isSome = true))) =
      some (true, true) := by
    decide +kernel
  rw [lexed] at computed
  obtain ⟨undotted, resolved⟩ := Prod.mk.inj (Option.some.inj computed)
  obtain ⟨m, compiled, _, all⟩ :=
    compile_locations_resolve .entity 10 parsed (of_decide_eq_true undotted)
  cases (compile_plain lexed .entity 10).symm.trans compiled
  have found := of_decide_eq_true resolved
  exact ⟨_, _, parsed, compiled, found, all.mp found⟩

/-- A service that is declared twice, with a method of its own both times. -/
def serviceTwice : String :=
  "service S for (A) \x7b\n  m()\n\x7d\nservice S for (A) \x7b\n  n()\n\x7d\n"

/-- The method of the first declaration has a place, but the document has lost it. -/
theorem compile_locations_lost :
    ∃ p m, Parse.ofSource? .entity 10 serviceTwice = .ok p ∧
      (∀ s ∈ Language.entity.sites p.tree, s.address.Undotted) ∧
      compile .entity ⟨false, 10⟩ serviceTwice = .ok m ∧
      "services.S.methods.m" ∈ m.locations.keys ∧
        (m.document.lookup? "services.S.methods.m").isSome = false := by
  obtain ⟨tokens, lexed⟩ : ∃ tokens, Token.lex serviceTwice = .ok tokens :=
    Token.exists_of_isOk (by decide +kernel)
  refine ⟨_, _, Parse.ofSource?_of_lex lexed .entity 10, ?_, compile_plain lexed .entity 10, ?_⟩
  · have computed : ((Token.lex serviceTwice).toOption.any fun tokens =>
        decide (∀ s ∈ Language.entity.sites (Parse.ofTokens .entity 10 tokens).tree,
          s.address.Undotted)) = true := by
      decide +kernel
    rw [lexed] at computed
    exact of_decide_eq_true computed
  · have computed : ((Token.lex serviceTwice).toOption.map fun tokens =>
        let m := (Parse.ofTokens .entity 10 tokens).model .entity
        (decide ("services.S.methods.m" ∈ m.locations.keys),
          (m.document.lookup? "services.S.methods.m").isSome)) = some (true, false) := by
      decide +kernel
    rw [lexed] at computed
    obtain ⟨located, lost⟩ := Prod.mk.inj (Option.some.inj computed)
    exact ⟨of_decide_eq_true located, lost⟩

end EntityFlow
