import EntityFlow.Document.EntityBuilder
import EntityFlow.Proofs.Data.OrderedMap

/-!
# Open entities

While an entity is built, the scope holds it and the entities around it, all of one part of the
document. What the builder then looks like is a document and a list of open entities, each with a
mark: it is shadowed once an entity inside it has taken its place (`EntityBuilder.Shows`). Every
step of the builder is a step on these two, and the marks after entities of some names have been
put are `shadowAll`: of each name the innermost open entity is marked.

The main statement is `EntityBuilder.Shows.close`: an entity that is opened, gets fields, has
entities put inside it and is closed leaves the document as if it had been put first, in its final
form, and the inner entities after it.
-/

namespace EntityFlow

/-! ## Entities of a part -/

/-- The entity under the key that it has in a document. -/
def Entity.entry (e : Entity) : String × Entity := (e.name, e)

/-- The entity with more options. -/
def Entity.withOptions (e : Entity) (options : List (String × Value)) : Entity :=
  { e with options := e.options.putAll options }

/-- The entity with more fields. -/
def Entity.withFields (e : Entity) (fields : List (String × Field)) : Entity :=
  { e with fields := e.fields.putAll fields }

@[simp] theorem Entity.name_withFields (e : Entity) (fields : List (String × Field)) :
    (e.withFields fields).name = e.name := rfl

/-- Whether one of some entities has a name. -/
def named (es : List Entity) (name : String) : Bool := es.any (·.name == name)

@[simp] theorem named_cons (e : Entity) (es : List Entity) (name : String) :
    named (e :: es) name = (e.name == name || named es name) := rfl

theorem named_append (first second : List Entity) (name : String) :
    named (first ++ second) name = (named first name || named second name) := List.any_append

theorem named_iff {es : List Entity} {name : String} :
    named es name = true ↔ name ∈ (es.map Entity.entry).map (·.1) := by
  simp [named, Entity.entry]

namespace EntityDocument

/-- The document with the entities of a part changed. -/
def changePart (d : EntityDocument) (part : Section)
    (change : OrderedMap Entity → OrderedMap Entity) : EntityDocument :=
  match part with
  | .entities => { d with entities := change d.entities }
  | .events => { d with events := change d.events }
  | .inputs => { d with inputs := change d.inputs }

theorem putEntity_eq (d : EntityDocument) (part : Section) (key : String) (e : Entity) :
    d.putEntity part key e = d.changePart part (·.put key e) := by
  cases part <;> rfl

@[simp] theorem changePart_changePart (d : EntityDocument) (part : Section)
    (first second : OrderedMap Entity → OrderedMap Entity) :
    (d.changePart part first).changePart part second =
      d.changePart part fun m => second (first m) := by
  cases part <;> rfl

theorem entitiesOf_changePart (d : EntityDocument) (part other : Section)
    (change : OrderedMap Entity → OrderedMap Entity) :
    (d.changePart part change).entitiesOf other =
      if other = part then change (d.entitiesOf other) else d.entitiesOf other := by
  cases part <;> cases other <;> rfl

/-- The document with entities put into a part one after the other. -/
def putEntities (d : EntityDocument) (part : Section) (es : List Entity) : EntityDocument :=
  d.changePart part (·.putAll (es.map Entity.entry))

@[simp] theorem putEntities_nil (d : EntityDocument) (part : Section) :
    d.putEntities part [] = d := by
  cases part <;> rfl

@[simp] theorem putEntities_putEntities (d : EntityDocument) (part : Section)
    (first second : List Entity) :
    (d.putEntities part first).putEntities part second = d.putEntities part (first ++ second) := by
  simp [putEntities]

/-- A place can be reserved before other entities are put and filled after them, unless one of them
has taken it. -/
theorem putEntities_reserved (d : EntityDocument) (part : Section) (e : Entity)
    (inner : List Entity) :
    (if named inner e.name then (d.putEntity part e.name {}).putEntities part inner
      else ((d.putEntity part e.name {}).putEntities part inner).putEntity part e.name e) =
      d.putEntities part (e :: inner) := by
  have reserved (m : OrderedMap Entity) := m.putAll_reserved e.name {} e (inner.map Entity.entry)
  by_cases taken : named inner e.name
  · rw [if_pos taken, putEntities, putEntity_eq, changePart_changePart]
    congr
    funext m
    rw [List.map_cons, Entity.entry, ← reserved m, if_pos (named_iff.mp taken)]
  · rw [if_neg taken, putEntities, putEntity_eq, putEntity_eq, changePart_changePart,
      changePart_changePart]
    congr
    funext m
    rw [List.map_cons, Entity.entry, ← reserved m, if_neg (taken ∘ named_iff.mpr)]

end EntityDocument

/-! ## Marks -/

/-- The open entities, the innermost first, after entities inside all of them have taken some names:
of each name the innermost is marked. -/
def shadowAll (taken : String → Bool) : List (Entity × Bool) → List (Entity × Bool)
  | [] => []
  | (record, shadowed) :: outer =>
      (record, shadowed || taken record.name) ::
        shadowAll (fun name => record.name != name && taken name) outer

@[simp] theorem shadowAll_false (frames : List (Entity × Bool)) :
    shadowAll (fun _ => false) frames = frames := by
  induction frames with
  | nil => rfl
  | cons frame outer ih => simp [shadowAll, ih]

@[simp] theorem shadowAll_shadowAll (first second : String → Bool) (frames : List (Entity × Bool)) :
    shadowAll second (shadowAll first frames) =
      shadowAll (fun name => first name || second name) frames := by
  induction frames generalizing first second with
  | nil => rfl
  | cons frame outer ih => simp [shadowAll, ih, Bool.or_assoc, Bool.and_or_distrib_left]

@[simp] theorem shadowAll_named_nil (frames : List (Entity × Bool)) :
    shadowAll (named []) frames = frames :=
  shadowAll_false frames

theorem shadowAll_named_append (first second : List Entity) (frames : List (Entity × Bool)) :
    shadowAll (named (first ++ second)) frames =
      shadowAll (named second) (shadowAll (named first) frames) := by
  rw [shadowAll_shadowAll]
  congr
  funext name
  exact named_append first second name

/-- The frames of open entities of a part. -/
def openFrames (part : Section) (frames : List (Entity × Bool)) : List EntityFrame :=
  frames.map fun (record, shadowed) => .entity part record shadowed

theorem openFrames_cons (part : Section) (record : Entity) (shadowed : Bool)
    (outer : List (Entity × Bool)) :
    openFrames part ((record, shadowed) :: outer) =
      .entity part record shadowed :: openFrames part outer := rfl

/-- Marking the nearest frame of a name marks the innermost open entity of that name. -/
theorem changeFirst?_shadow? (part : Section) (name : String) (frames : List (Entity × Bool)) :
    (Scope.changeFirst? (EntityFrame.shadow? part name) (openFrames part frames)).getD
        (openFrames part frames) =
      openFrames part (shadowAll (name == ·) frames) := by
  induction frames with
  | nil => rfl
  | cons frame outer ih =>
      obtain ⟨record, shadowed⟩ := frame
      rw [openFrames_cons, Scope.changeFirst?, EntityFrame.shadow?, shadowAll]
      by_cases here : record.name = name
      · -- once a frame is found the name is used up
        have rest : (fun other => record.name != other && name == other) = fun _ => false := by
          funext other
          rw [here, bne, Bool.not_and_self]
        rw [rest, shadowAll_false, if_pos ⟨rfl, here⟩, here, beq_self_eq_true, Bool.or_true]
        rfl
      · have rest : (fun other => record.name != other && name == other) = (name == ·) := by
          funext other
          by_cases same : name = other
          · simp [← same, here]
          · simp [same]
        rw [rest, if_neg (fun both => here both.2), beq_false_of_ne (Ne.symm here), Bool.or_false,
          openFrames_cons, ← ih]
        cases Scope.changeFirst? (EntityFrame.shadow? part name) (openFrames part outer) <;> rfl

/-! ## What the builder shows -/

namespace EntityBuilder

/-- The builder has a document, and open are some entities of a part of it. -/
structure Shows (b : EntityBuilder) (part : Section) (document : EntityDocument)
    (frames : List (Entity × Bool)) : Prop where
  document : b.document = document
  frames : b.scope.frames = openFrames part frames

namespace Shows

variable {b : EntityBuilder} {part : Section} {document : EntityDocument}
  {record : Entity} {shadowed : Bool} {outer frames : List (Entity × Bool)}

theorem skip (shows : Shows b part document frames) (n : Node) (context : Context) :
    Shows (b.skip n context) part document frames :=
  ⟨shows.document, shows.frames⟩

theorem locate (shows : Shows b part document frames) (path : String) (span : Span) :
    Shows (b.locate path span) part document frames :=
  ⟨shows.document, shows.frames⟩

theorem currentPart (shows : Shows b part document ((record, shadowed) :: outer)) :
    b.currentPart = part := by
  rw [EntityBuilder.currentPart, Scope.nearest?, shows.frames]
  rfl

/-- A frame that is opened reserves the place of its entity and marks the one that has it. -/
theorem enterEntity (shows : Shows b part document frames) (record : Entity) :
    Shows (b.enterEntity part record) part (document.putEntity part record.name {})
      ((record, false) :: shadowAll (record.name == ·) frames) := by
  constructor
  · rw [← shows.document]
    rfl
  · rw [openFrames_cons, ← changeFirst?_shadow?, ← shows.frames, EntityBuilder.enterEntity,
      EntityBuilder.enter, Scope.enter, EntityBuilder.changeNearest, Scope.changeNearest,
      Scope.changeNearest?]
    cases Scope.changeFirst? (EntityFrame.shadow? part record.name) b.scope.frames <;> rfl

/-- A field goes to the innermost open entity. -/
theorem addField? (shows : Shows b part document ((record, shadowed) :: outer)) (field : Field) :
    Shows (b.changeNearest (EntityFrame.addField? field)) part document
      ((record.withFields [(field.name, field)], shadowed) :: outer) := by
  constructor
  · exact shows.document
  · rw [EntityBuilder.changeNearest, Scope.changeNearest, Scope.changeNearest?, shows.frames]
    rfl

/-- Options go to the innermost open entity. -/
theorem applyOptions (shows : Shows b part document ((record, shadowed) :: outer)) (n : Node) :
    Shows (b.applyOptions n) part document
      ((record.withOptions n.options, shadowed) :: outer) := by
  rw [EntityBuilder.applyOptions]
  generalize n.options = options
  induction options generalizing b record with
  | nil => exact shows
  | cons option rest ih =>
      have added : Shows (b.changeTop (·.addOption option)) part document
          ((record.withOptions [option], shadowed) :: outer) := by
        constructor
        · exact shows.document
        · rw [EntityBuilder.changeTop, Scope.changeTop, shows.frames]
          rfl
      exact ih added

/-- A frame that is closed puts its entity, unless it is marked. -/
theorem exit (shows : Shows b part document ((record, shadowed) :: outer)) :
    Shows b.exit part
      (if shadowed then document else document.putEntity part record.name record) outer := by
  have top : b.scope.exit = (some (.entity part record shadowed), ⟨openFrames part outer⟩) := by
    rw [Scope.exit, shows.frames]
    rfl
  rw [EntityBuilder.exit, top, ← shows.document]
  cases shadowed <;> exact ⟨rfl, rfl⟩

/-- **An entity that is closed counts as put before those inside it.** -/
theorem close {inner : List Entity} {fields : List (String × Field)} (record : Entity)
    (shows : Shows b part ((document.putEntity part record.name {}).putEntities part inner)
      (shadowAll (named inner)
        ((record.withFields fields, false) :: shadowAll (record.name == ·) frames))) :
    Shows b.exit part (document.putEntities part (record.withFields fields :: inner))
      (shadowAll (named (record.withFields fields :: inner)) frames) := by
  have closed := shows.exit
  rw [shadowAll_shadowAll] at closed
  -- outside, the name of the entity counts as taken first, so it does not matter that the entity
  -- hid it from the marks of the inner ones
  have marks : (fun name => record.name == name ||
        (record.withFields fields).name != name && named inner name) =
      named (record.withFields fields :: inner) := by
    funext name
    rw [named_cons, Entity.name_withFields, bne]
    cases record.name == name <;> rfl
  rw [marks, Bool.false_or] at closed
  have put := document.putEntities_reserved part (record.withFields fields) inner
  rw [Entity.name_withFields] at put closed
  rw [put] at closed
  exact closed

end Shows

end EntityBuilder

end EntityFlow
