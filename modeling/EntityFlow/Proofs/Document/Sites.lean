import EntityFlow.Proofs.Document.Addresses
import EntityFlow.Proofs.Document.Declarations

/-!
# The sites of declarations

What a source declares stands at a node of its tree, has an address in the document and leads to a
record there. The declarations of a tree are listed in the order in which the builder comes to
them, each in front of those inside it (`EntityBuilder.declarations`). The locations of a model
follow from this list: the place of every declaration, and of its name if it has one of its own, is
put under its path, one declaration after the other (`EntityBuilder.locations_ofTree`).

A nested body has no name of its own: it is called by the type of its field. Nor has a relationship.
-/

namespace EntityFlow

/-! ## Sites -/

/-- What some items that were picked give is what all give if the others give nothing. -/
theorem flatMap_filter {α β : Type} (p : α → Bool) (f : α → List β) (items : List α) :
    (items.filter p).flatMap f = items.flatMap fun x => if p x = true then f x else [] := by
  induction items with
  | nil => rfl
  | cons x rest ih =>
      rw [List.flatMap_cons, ← ih]
      by_cases holds : p x = true
      · rw [if_pos holds, List.filter_cons_of_pos holds, List.flatMap_cons]
      · rw [if_neg holds, List.filter_cons_of_neg holds, List.nil_append]

/-- A declaration in a source: its address in the document, its node, and the node of its name if it
has one of its own. -/
structure Site where
  address : Address
  node : Node
  name : Option Node
  unnamed : address.isRelationship = true → name = none

namespace Site

/-- What is recorded of a site: the place of the name, then that of the whole declaration. -/
def entries (s : Site) : List (String × Span) :=
  (s.name.map fun name => (s.address.path ++ ".name", name.span)).toList ++
    [(s.address.path, s.node.span)]

theorem mem_entries_key {s : Site} {path : String} :
    path ∈ s.entries.map (·.1) ↔
      path = s.address.path ∨ (s.name.isSome = true ∧ path = s.address.path ++ ".name") := by
  unfold entries
  cases s.name with
  | none => simp
  | some name => simp [or_comm]

/-- The locations of some sites, put one after the other. -/
def locations (sites : List Site) : OrderedMap Span := OrderedMap.ofEntries (sites.flatMap entries)

/-- What is recorded of some sites is recorded of one of them. -/
theorem mem_flatMap_entries_key {sites : List Site} {path : String} :
    path ∈ (sites.flatMap entries).map (·.1) ↔ ∃ s ∈ sites,
      path = s.address.path ∨ (s.name.isSome = true ∧ path = s.address.path ++ ".name") := by
  simp only [List.map_flatMap, List.mem_flatMap, mem_entries_key]

theorem isRelationship_of_named {s : Site} (isNamed : s.name.isSome = true) :
    s.address.isRelationship = false := by
  cases known : s.address.isRelationship with
  | false => rfl
  | true =>
      rw [s.unnamed known] at isNamed
      cases isNamed

/-- The path of a name that has a place of its own is the path of nothing else. -/
theorem not_path_of_name {s : Site} {a : Address} (undotted : a.Undotted)
    (undotted' : s.address.Undotted) (isNamed : s.name.isSome = true) :
    a.path ≠ s.address.path ++ ".name" := by
  intro same
  obtain ⟨kind, key, isRelationship, _⟩ := Address.relationships_of_name undotted' undotted same
  have other := isRelationship_of_named isNamed
  rw [isRelationship] at other
  cases other

/-- The place under a path is that of the last site with this address. -/
theorem value?_locations {sites : List Site} {s : Site} {a : Address}
    (undotted : ∀ s ∈ sites, s.address.Undotted) (last : LastOf (·.address = a) sites s) :
    (locations sites).value? a.path = some s.node.span := by
  obtain ⟨earlier, later, rfl, rfl, others⟩ := last
  have own := undotted s (by simp)
  have split : (earlier ++ s :: later).flatMap entries =
      (earlier.flatMap entries ++ (s.name.map fun name =>
        (s.address.path ++ ".name", name.span)).toList) ++
          (s.address.path, s.node.span) :: later.flatMap entries := by
    rw [List.flatMap_append, List.flatMap_cons, entries]
    simp
  rw [locations, split]
  refine OrderedMap.value?_ofEntries_last ?_
  intro member
  obtain ⟨other, inLater, known⟩ := mem_flatMap_entries_key.mp member
  have undottedOther := undotted other (by simp [inLater])
  rcases known with same | ⟨isNamed, same⟩
  · exact others other inLater (Address.eq_of_path_eq undottedOther own same.symm)
  · exact not_path_of_name own undottedOther isNamed same

/-- The place under the path of a name is that of the name of the last site with this address, if
the site has a name. -/
theorem value?_locations_name {sites : List Site} {s : Site} {name : Node} {a : Address}
    (undotted : ∀ s ∈ sites, s.address.Undotted) (last : LastOf (·.address = a) sites s)
    (own : s.name = some name) : (locations sites).value? (a.path ++ ".name") = some name.span := by
  obtain ⟨earlier, later, rfl, rfl, others⟩ := last
  have undottedOwn := undotted s (by simp)
  have isNamed : s.name.isSome = true := by
    rw [own]
    rfl
  have split : (earlier ++ s :: later).flatMap entries = earlier.flatMap entries ++
      (s.address.path ++ ".name", name.span) ::
        ((s.address.path, s.node.span) :: later.flatMap entries) := by
    rw [List.flatMap_append, List.flatMap_cons, entries, own]
    rfl
  rw [locations, split]
  refine OrderedMap.value?_ofEntries_last ?_
  rw [List.map_cons, List.mem_cons]
  rintro (same | member)
  · exact not_path_of_name undottedOwn undottedOwn isNamed same.symm
  · obtain ⟨other, inLater, known⟩ := mem_flatMap_entries_key.mp member
    have undottedOther := undotted other (by simp [inLater])
    rcases known with same | ⟨_, same⟩
    · exact not_path_of_name undottedOther undottedOwn isNamed same.symm
    · have paths : s.address.path = other.address.path := (String.append_left_inj _).mp same
      exact others other inLater (Address.eq_of_path_eq undottedOther undottedOwn paths.symm)

/-- The site of a declaration that has a name. -/
def named (address : Address) (n name : Node) (other : address.isRelationship = false) : Site where
  address := address
  node := n
  name := some name
  unnamed := by
    intro isRelationship
    rw [other] at isRelationship
    cases isRelationship

/-- The site of a declaration that has no name of its own. -/
def nameless (address : Address) (n : Node) : Site := ⟨address, n, none, fun _ => rfl⟩

end Site

/-- A declaration and the value of the record that is built from it. -/
structure Declaration where
  site : Site
  record : Value

namespace Declaration

/-- The nested body of a field. -/
def ofBody (part : Section) (field : Field) (body : Node) : Declaration :=
  ⟨.nameless (.entity part field.type) body, (Entity.ofBody field body.children).toValue⟩

mutual

/-- The nested bodies of the fields among some nodes, each in front of those inside it. -/
def nestedIn (part : Section) : List Node → List Declaration
  | [] => []
  | n :: rest =>
      (match n.kind with
        | .field => nestedInField part n
        | _ => []) ++ nestedIn part rest

/-- The nested body of a field and those inside it. -/
def nestedInField (part : Section) : Node → List Declaration
  | ⟨k, text, span, parts⟩ => nestedInBody part (Field.ofNode ⟨k, text, span, parts⟩) parts

/-- The first nested body among the parts of a field, and those inside it. -/
def nestedInBody (part : Section) (field : Field) : List Node → List Declaration
  | [] => []
  | ⟨.nestedField, text, span, body⟩ :: _ =>
      ofBody part field ⟨.nestedField, text, span, body⟩ :: nestedIn part body
  | _ :: rest => nestedInBody part field rest

end

theorem nestedIn_cons_of_field {part : Section} {n : Node} (isField : n.kind = .field)
    (rest : List Node) : nestedIn part (n :: rest) = nestedInField part n ++ nestedIn part rest := by
  rw [nestedIn, isField]

theorem nestedIn_cons_of_ne {part : Section} {n : Node} (other : n.kind ≠ .field)
    (rest : List Node) : nestedIn part (n :: rest) = nestedIn part rest := by
  rw [nestedIn]
  split
  · exact absurd ‹_› other
  · rfl

/-- An entity, event or input with the nested bodies in it. -/
def entity (part : Section) (n : Node) : List Declaration :=
  match n.child part.nameKind with
  | none => []
  | some name =>
      ⟨.named (.entity part name.text) n name rfl, (Entity.ofDeclaration n name.text).toValue⟩ ::
        nestedIn part n.children

/-- An enum. -/
def enum (n : Node) : List Declaration :=
  match n.child .enumName with
  | none => []
  | some name => [⟨.named (.enum name.text) n name rfl, (Enum.ofDeclaration n name.text).toValue⟩]

/-- A relationship. -/
def relationship (kind : String) (n : Node) : List Declaration :=
  match EntityBuilder.relationship? kind n with
  | none => []
  | some r => [⟨.nameless (.relationship kind r.key) n, r.toValue⟩]

/-- The relationships of a block. -/
def relationships (n : Node) : List Declaration :=
  (n.childrenOf .relationship).flatMap (relationship ((n.childText .relationshipType).getD ""))

/-- A method of a service. -/
def method (owner : String) (n : Node) : List Declaration :=
  match n.child .serviceMethodName with
  | none => []
  | some name =>
      [⟨.named (.method owner name.text) n name rfl, (Method.ofDeclaration n name.text).toValue⟩]

/-- A service with its methods. -/
def service (n : Node) : List Declaration :=
  match n.child .serviceName with
  | none => []
  | some name =>
      ⟨.named (.service name.text) n name rfl, (Service.ofDeclaration n name.text).toValue⟩ ::
        (n.childrenOf .serviceMethod).flatMap (method name.text)

/-- What a top-level node declares. -/
def topLevel (n : Node) : List Declaration :=
  match n.kind with
  | .entity => entity .entities n
  | .event => entity .events n
  | .input => entity .inputs n
  | .enum => enum n
  | .relationships => relationships n
  | .service | .serviceLegacy => service n
  | _ => []

end Declaration

namespace EntityBuilder

/-- What a tree declares, in the order of the source, a declaration in front of those inside it. -/
def declarations (tree : Node) : List Declaration := tree.children.flatMap Declaration.topLevel

/-- Where a tree declares what it declares. -/
def sites (tree : Node) : List Site := (declarations tree).map (·.site)

/-! ## What is recorded of a step -/

/-- That a step records the places of some declarations, one after the other. -/
def Locates (before after : EntityBuilder) (ds : List Declaration) : Prop :=
  after.locations = before.locations.putAll (ds.flatMap fun d => d.site.entries)

namespace Locates

variable {before middle after : EntityBuilder} {ds ds' : List Declaration}

/-- A step that leaves the locations alone. -/
theorem silent (same : after.locations = before.locations) : Locates before after [] := same

theorem trans (first : Locates before middle ds) (second : Locates middle after ds') :
    Locates before after (ds ++ ds') := by
  unfold Locates at *
  rw [second, first, List.flatMap_append, OrderedMap.putAll_append]

/-- Steps of a walk that record the places of declarations make a walk that does. -/
theorem foldl {α : Type} {step : EntityBuilder → α → EntityBuilder} {declares : α → List Declaration}
    (each : ∀ b item, Locates b (step b item) (declares item)) (items : List α)
    (b : EntityBuilder) : Locates b (items.foldl step b) (items.flatMap declares) := by
  induction items generalizing b with
  | nil => exact silent rfl
  | cons item rest ih => exact (each b item).trans (ih (step b item))

/-- Steps of a walk that record nothing make a walk that records nothing. -/
theorem foldl_nil {α : Type} {step : EntityBuilder → α → EntityBuilder}
    (each : ∀ b item, Locates b (step b item) []) (items : List α) (b : EntityBuilder) :
    Locates b (items.foldl step b) [] := by
  have none : (items.flatMap fun _ => ([] : List Declaration)) = [] :=
    List.flatMap_eq_nil_iff.mpr fun _ _ => rfl
  rw [← none]
  exact foldl each items b

/-- A step that records nothing, behind one that records something. -/
theorem followed (first : Locates before middle ds) (second : Locates middle after []) :
    Locates before after ds := by
  have both := first.trans second
  rwa [List.append_nil] at both

theorem applyOptions (b : EntityBuilder) (n : Node) : Locates b (b.applyOptions n) [] := by
  rw [EntityBuilder.applyOptions]
  refine foldl_nil (fun b option => ?_) n.options b
  show Locates b (b.changeTop _) []
  exact silent rfl

theorem skipErrors (b : EntityBuilder) (context : Context) (ns : List Node) :
    Locates b (b.skipErrors context ns) [] := by
  rw [EntityBuilder.skipErrors]
  refine foldl_nil (fun b n => ?_) _ b
  show Locates b (b.skip n context) []
  exact silent rfl

theorem register (b : EntityBuilder) (frame : EntityFrame) : Locates b (b.register frame) [] := by
  cases frame with
  | entity part record shadowed => cases shadowed <;> exact silent rfl
  | enum record => exact silent rfl
  | service record => exact silent rfl
  | method record => exact silent rfl

theorem exit (b : EntityBuilder) : Locates b b.exit [] := by
  rw [EntityBuilder.exit]
  obtain ⟨top, rest⟩ := b.scope.exit
  cases top with
  | none => exact silent rfl
  | some frame => exact (silent rfl).trans (register _ frame)

end Locates

/-! ## Entities -/

namespace Shows

variable {part : Section}

mutual

theorem locates_addField (n : Node) {b : EntityBuilder} {document : EntityDocument}
    {record : Entity} {shadowed : Bool} {outer : List (Entity × Bool)}
    (shows : Shows b part document ((record, shadowed) :: outer)) :
    Locates b (b.addField n) (Declaration.nestedInField part n) := by
  obtain ⟨k, text, span, parts⟩ := n
  rw [EntityBuilder.addField, Declaration.nestedInField]
  exact locates_addEmbedded (Field.ofNode ⟨k, text, span, parts⟩) parts (shows.addField? _)

theorem locates_addEmbedded (field : Field) (parts : List Node) {b : EntityBuilder}
    {document : EntityDocument} {record : Entity} {shadowed : Bool} {outer : List (Entity × Bool)}
    (shows : Shows b part document ((record, shadowed) :: outer)) :
    Locates b (EntityBuilder.addEmbedded field parts b)
      (Declaration.nestedInBody part field parts) := by
  match parts with
  | [] =>
      rw [EntityBuilder.addEmbedded, Declaration.nestedInBody]
      exact .silent rfl
  | ⟨k, text, span, body⟩ :: rest =>
      by_cases nested : k = .nestedField
      · subst nested
        rw [EntityBuilder.addEmbedded, Declaration.nestedInBody, shows.currentPart]
        have opened := (shows.locate (part.key ++ "." ++ field.type) span).enterEntity
          (embeddedEntity field body)
        have located : Locates b ((b.locate (part.key ++ "." ++ field.type) span).enterEntity part
            (embeddedEntity field body))
            [Declaration.ofBody part field ⟨.nestedField, text, span, body⟩] := rfl
        exact (located.trans (locates_addFields body opened)).followed (Locates.exit _)
      · rw [EntityBuilder.addEmbedded, Declaration.nestedInBody]
        · exact locates_addEmbedded field rest shows
        · simp [nested]
        · simp [nested]

theorem locates_addFields (ns : List Node) {b : EntityBuilder} {document : EntityDocument}
    {record : Entity} {shadowed : Bool} {outer : List (Entity × Bool)}
    (shows : Shows b part document ((record, shadowed) :: outer)) :
    Locates b (EntityBuilder.addFields ns b) (Declaration.nestedIn part ns) := by
  match ns with
  | [] =>
      rw [EntityBuilder.addFields, Declaration.nestedIn]
      exact .silent rfl
  | n :: rest =>
      rw [EntityBuilder.addFields]
      by_cases isField : n.kind = .field
      · rw [isField, Declaration.nestedIn_cons_of_field isField]
        exact (locates_addField n shows).trans (locates_addFields rest (shows.addField n))
      · rw [Declaration.nestedIn_cons_of_ne isField]
        split
        · exact absurd ‹_› isField
        · have skipped : Locates b (b.skip n .fieldList) [] := .silent rfl
          exact skipped.trans (locates_addFields rest (shows.skip n .fieldList))
        · exact locates_addFields rest shows

end

/-- An entity records its own place and then those of the bodies in it. -/
theorem locates_addEntity {b : EntityBuilder} {document : EntityDocument}
    (shows : Shows b part document []) (n : Node) :
    Locates b (b.addEntity part part.nameKind n) (Declaration.entity part n) := by
  rw [EntityBuilder.addEntity, Declaration.entity]
  cases n.child part.nameKind with
  | none => exact .silent rfl
  | some name =>
      have located : Shows (b.locateNamed (part.key ++ "." ++ name.text) n name) part document [] :=
        (shows.locate _ name.span).locate _ n.span
      have opened := (located.enterEntity (declaredEntity n name.text)).applyOptions n
      have recorded : Locates b ((b.locateNamed (part.key ++ "." ++ name.text) n name).enterEntity
          part (declaredEntity n name.text))
          [⟨.named (.entity part name.text) n name rfl,
            (Entity.ofDeclaration n name.text).toValue⟩] := rfl
      exact ((recorded.followed (Locates.applyOptions _ n)).trans
        (locates_addFields n.children opened)).followed (Locates.exit _)

end Shows

/-! ## Other declarations -/

section Steps

variable (b : EntityBuilder) (n : Node)

theorem locates_addEnumPart : Locates b (b.addEnumPart n) [] := by
  unfold addEnumPart addEnumValue
  split
  · split <;> exact .silent rfl
  · exact .silent rfl
  · exact .silent rfl

theorem locates_addEnum : Locates b (b.addEnum n) (Declaration.enum n) := by
  unfold addEnum Declaration.enum
  cases n.child .enumName with
  | none => exact .silent rfl
  | some name =>
      have recorded : Locates b ((b.locateNamed ("enums." ++ name.text) n name).enter
          (.enum { Enum.named name.text with documentation := n.documentation? }))
          [⟨.named (.enum name.text) n name rfl, (Enum.ofDeclaration n name.text).toValue⟩] := rfl
      exact ((recorded.followed (Locates.applyOptions _ n)).followed
        (Locates.foldl_nil locates_addEnumPart n.children _)).followed (Locates.exit _)

theorem locates_addRelationship (kind : String) :
    Locates b (b.addRelationship kind n) (Declaration.relationship kind n) := by
  unfold addRelationship Declaration.relationship
  cases relationship? kind n with
  | none => exact .silent rfl
  | some r => exact rfl

theorem locates_addRelationships :
    Locates b (b.addRelationships n) (Declaration.relationships n) := by
  rw [Declaration.relationships, Node.childrenOf, flatMap_filter]
  refine Locates.foldl (fun b part => ?_) n.children b
  unfold addRelationshipPart
  split <;> rename_i known
  · rw [known]
    exact locates_addRelationship b part _
  · rw [known]
    exact .silent rfl
  · rw [if_neg (by simpa using ‹_›)]
    exact .silent rfl

theorem locates_addMethod (owner : String) :
    Locates b (addMethod owner b n) (Declaration.method owner n) := by
  unfold addMethod Declaration.method
  cases n.child .serviceMethodName with
  | none => exact .silent rfl
  | some name =>
      have recorded : Locates b ((b.locateNamed ("services." ++ owner ++ ".methods." ++ name.text)
          n name).enter (.method (declaredMethod n name.text)))
          [⟨.named (.method owner name.text) n name rfl,
            (Method.ofDeclaration n name.text).toValue⟩] := rfl
      exact ((recorded.followed (Locates.applyOptions _ n)).followed
        (Locates.skipErrors _ .method n.children)).followed (Locates.exit _)

/-- Only declared methods have a place in the source; implied ones are recorded nowhere. -/
theorem locates_addMethods (owner : String) (aggregates : List String) :
    Locates b (b.addMethods n owner aggregates)
      ((n.childrenOf .serviceMethod).flatMap (Declaration.method owner)) := by
  unfold addMethods
  cases n.childrenOf .serviceMethod with
  | nil => exact Locates.foldl_nil (fun b m => Locates.register b (.method m)) _ b
  | cons m rest => exact Locates.foldl (fun b m => locates_addMethod b m owner) (m :: rest) b

theorem locates_addService : Locates b (b.addService n) (Declaration.service n) := by
  unfold addService Declaration.service
  cases n.child .serviceName with
  | none => exact .silent rfl
  | some name =>
      have recorded : Locates b ((b.locateNamed ("services." ++ name.text) n name).enter
          (.service { Service.named name.text with
            documentation := n.documentation?, aggregates := Service.aggregatesOf n }))
          [⟨.named (.service name.text) n name rfl,
            (Service.ofDeclaration n name.text).toValue⟩] := rfl
      exact (((recorded.followed (Locates.applyOptions _ n)).trans
        (locates_addMethods _ n name.text _)).followed
          (Locates.skipErrors _ .service n.children)).followed (Locates.exit _)

end Steps

/-- A top-level node records the places of what it declares. -/
theorem locates_addTopLevel {b : EntityBuilder} (closed : b.scope.frames = []) (n : Node) :
    Locates b (b.addTopLevel n) (Declaration.topLevel n) := by
  have shows (part : Section) : Shows b part b.document [] := ⟨rfl, closed⟩
  unfold addTopLevel
  split <;> rename_i known
  · rw [Declaration.topLevel, known]
    exact .silent rfl
  · rw [Declaration.topLevel, known]
    unfold addConstant
    split <;> exact .silent rfl
  · rw [Declaration.topLevel, known]
    exact (shows .entities).locates_addEntity n
  · rw [Declaration.topLevel, known]
    exact (shows .events).locates_addEntity n
  · rw [Declaration.topLevel, known]
    exact (shows .inputs).locates_addEntity n
  · rw [Declaration.topLevel, known]
    exact locates_addEnum b n
  · rw [Declaration.topLevel, known]
    exact locates_addRelationships b n
  · rw [Declaration.topLevel, known]
    exact locates_addService b n
  · rw [Declaration.topLevel, known]
    exact locates_addService b n
  · have nothing : Declaration.topLevel n = [] := by
      unfold Declaration.topLevel
      split <;> first | rfl | exact absurd ‹_› ‹_›
    rw [nothing]
    exact .silent rfl

theorem locates_foldl_addTopLevel (ns : List Node) {b : EntityBuilder}
    (closed : b.scope.frames = []) :
    Locates b (ns.foldl addTopLevel b) (ns.flatMap Declaration.topLevel) := by
  induction ns generalizing b with
  | nil => exact .silent rfl
  | cons n rest ih =>
      exact (locates_addTopLevel closed n).trans (ih (entitiesOf_addTopLevel closed n).1)

/-- **The locations of a tree are the places of what it declares**, put one after the other. -/
theorem locations_ofTree (tree : Node) :
    (ofTree tree).locations = Site.locations (sites tree) := by
  have walk := locates_foldl_addTopLevel tree.children (b := {}) rfl
  rw [Site.locations, sites, List.flatMap_map]
  exact walk

end EntityBuilder

end EntityFlow
