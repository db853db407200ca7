import EntityFlow.Document.Model
import EntityFlow.Document.Scope
import EntityFlow.Record.Crud

/-!
# Documents of the entity language

Building walks the tree of a source once, declaration by declaration. A declaration that has parts
opens a frame, its parts are put into the frame, and closing the frame puts the finished record
into the document. A nested field body is an entity of its own in the section of the declaration
around it: its place is reserved when its frame opens, so an outer entity comes before the inner
ones. If an inner entity takes the place of an open outer one, the inner one keeps it.
-/

namespace EntityFlow

/-- The parts of a document that hold entities. -/
inductive Section
  | entities
  | events
  | inputs
deriving Repr, DecidableEq

namespace Section

/-- The part as a place of diagnostics. -/
def context : Section → Context
  | .entities => .entities
  | .events => .events
  | .inputs => .inputs

/-- The key of the part in a document. -/
def key (s : Section) : String := s.context.name

end Section

/-- The entities of a part of a document. -/
def EntityDocument.entitiesOf (d : EntityDocument) : Section → OrderedMap Entity
  | .entities => d.entities
  | .events => d.events
  | .inputs => d.inputs

/-- The document with an entity put into a part under a key. -/
def EntityDocument.putEntity (d : EntityDocument) (s : Section) (key : String) (e : Entity) :
    EntityDocument :=
  match s with
  | .entities => { d with entities := d.entities.put key e }
  | .events => { d with events := d.events.put key e }
  | .inputs => { d with inputs := d.inputs.put key e }

/-- The document with a relationship put among those of its kind. -/
def EntityDocument.putRelationship (d : EntityDocument) (r : Relationship) : EntityDocument :=
  let partition := (d.relationships.value? r.kind).getD []
  { d with relationships := d.relationships.put r.kind (partition.put r.key r) }

/-- A declaration that is open. -/
inductive EntityFrame
  /-- An entity that goes to a part of the document. It is shadowed once an inner entity takes its
  place. -/
  | entity (part : Section) (record : Entity) (shadowed : Bool)
  | enum (record : Enum)
  | service (record : Service)
  | method (record : Method)
deriving Repr

namespace EntityFrame

/-- The frame with an option added to its record. -/
def addOption (frame : EntityFrame) (option : String × Value) : EntityFrame :=
  let (name, value) := option
  match frame with
  | .entity part record shadowed =>
      .entity part { record with options := record.options.put name value } shadowed
  | .enum record => .enum { record with options := record.options.put name value }
  | .service record => .service { record with options := record.options.put name value }
  | .method record => .method (record.addOption name value)

/-- The frame with a field, if it is an entity. -/
def addField? (field : Field) : EntityFrame → Option EntityFrame
  | .entity part record shadowed =>
      some (.entity part { record with fields := record.fields.put field.name field } shadowed)
  | _ => none

/-- The frame with a value, if it is an enum. -/
def addEnumValue (value : EnumValue) : EntityFrame → EntityFrame
  | .enum record => .enum { record with values := record.values.put value.name value }
  | other => other

/-- The frame with a method, if it is a service. -/
def addMethod? (method : Method) : EntityFrame → Option EntityFrame
  | .service record => some (.service { record with methods := record.methods.put method.name method })
  | _ => none

/-- The part of the document that an entity goes to. -/
def part? : EntityFrame → Option Section
  | .entity part _ _ => some part
  | _ => none

/-- The frame marked as shadowed, if it is an entity with the given place. -/
def shadow? (part : Section) (name : String) : EntityFrame → Option EntityFrame
  | .entity p record _ =>
      if p = part ∧ record.name = name then some (.entity p record true) else none
  | _ => none

end EntityFrame

/-- A document on its way. -/
structure EntityBuilder where
  document : EntityDocument := {}
  scope : Scope EntityFrame := .empty
  locations : OrderedMap Span := []
  diagnostics : List Diagnostic := []
deriving Repr

namespace EntityBuilder

/-! ## Steps -/

/-- Leaves a node out. -/
def skip (n : Node) (context : Context) (b : EntityBuilder) : EntityBuilder :=
  { b with diagnostics := b.diagnostics ++ [Diagnostic.ofNode n context] }

/-- Leaves the error nodes among some nodes out. -/
def skipErrors (context : Context) (ns : List Node) (b : EntityBuilder) : EntityBuilder :=
  (ns.filter (·.kind == .error)).foldl (fun b n => b.skip n context) b

/-- Records where a part of the document stands. -/
def locate (path : String) (span : Span) (b : EntityBuilder) : EntityBuilder :=
  { b with locations := b.locations.put path span }

/-- Records where a declaration and its name stand. -/
def locateNamed (path : String) (n name : Node) (b : EntityBuilder) : EntityBuilder :=
  (b.locate (path ++ ".name") name.span).locate path n.span

/-- Opens a frame. -/
def enter (frame : EntityFrame) (b : EntityBuilder) : EntityBuilder :=
  { b with scope := b.scope.enter frame }

/-- Changes the innermost frame. -/
def changeTop (change : EntityFrame → EntityFrame) (b : EntityBuilder) : EntityBuilder :=
  { b with scope := b.scope.changeTop change }

/-- Changes the nearest frame for which there is a change. -/
def changeNearest (change : EntityFrame → Option EntityFrame) (b : EntityBuilder) : EntityBuilder :=
  { b with scope := b.scope.changeNearest change }

/-- Opens the frame of an entity after reserving its place. -/
def enterEntity (part : Section) (record : Entity) (b : EntityBuilder) : EntityBuilder :=
  ({ b with document := b.document.putEntity part record.name {} }.changeNearest
    (EntityFrame.shadow? part record.name)).enter (.entity part record false)

/-- Puts a finished record to where it belongs. -/
def register (frame : EntityFrame) (b : EntityBuilder) : EntityBuilder :=
  match frame with
  | .entity part record shadowed =>
      if shadowed then b else { b with document := b.document.putEntity part record.name record }
  | .enum record =>
      { b with document := { b.document with enums := b.document.enums.put record.name record } }
  | .service record =>
      { b with document :=
        { b.document with services := b.document.services.put record.name record } }
  | .method record => b.changeNearest (EntityFrame.addMethod? record)

/-- Closes the innermost frame. -/
def exit (b : EntityBuilder) : EntityBuilder :=
  match b.scope.exit with
  | (some frame, rest) => { b with scope := rest }.register frame
  | (none, _) => b

/-- Adds the options of a node to the innermost frame. -/
def applyOptions (n : Node) (b : EntityBuilder) : EntityBuilder :=
  n.options.foldl (fun b option => b.changeTop (·.addOption option)) b

/-- The part of the document that the declaration around goes to. -/
def currentPart (b : EntityBuilder) : Section :=
  (b.scope.nearest? EntityFrame.part?).getD .entities

/-! ## Entities -/

/-- The entity of a nested field body; the field gives it its type as name, and its
documentation. -/
def embeddedEntity (field : Field) (body : List Node) : Entity :=
  { Entity.named field.type with
    documentation := field.documentation
    tableName := (body.find? (·.kind == .tableName)).map (·.text)
    options := [("embedded", .boolean true)] }

mutual

/-- Adds a field to its entity, and the entity of its nested body to the document. -/
def addField : Node → EntityBuilder → EntityBuilder
  | ⟨k, text, span, parts⟩, b =>
      let field := Field.ofNode ⟨k, text, span, parts⟩
      addEmbedded field parts (b.changeNearest (EntityFrame.addField? field))

/-- Adds the entity of the first nested body among some nodes. -/
def addEmbedded (field : Field) : List Node → EntityBuilder → EntityBuilder
  | [], b => b
  | ⟨.nestedField, _, span, body⟩ :: _, b =>
      let part := b.currentPart
      let located := b.locate (part.key ++ "." ++ field.type) span
      (addFields body (located.enterEntity part (embeddedEntity field body))).exit
  | _ :: rest, b => addEmbedded field rest b

/-- Adds the fields among some nodes. -/
def addFields : List Node → EntityBuilder → EntityBuilder
  | [], b => b
  | n :: rest, b =>
      let next :=
        match n.kind with
        | .field => addField n b
        | .error => b.skip n .fieldList
        | _ => b
      addFields rest next

end

/-- The entity that a node declares under a name, without its options and fields. -/
def declaredEntity (n : Node) (name : String) : Entity :=
  { Entity.named name with
    tableName := n.childText .tableName
    documentation := n.documentation?
    channel := n.childText .eventChannel }

/-- Adds an entity, event or input. -/
def addEntity (part : Section) (nameKind : Node.Kind) (n : Node) (b : EntityBuilder) :
    EntityBuilder :=
  match n.child nameKind with
  | none => b.skip n part.context
  | some name =>
      let opened := (b.locateNamed (part.key ++ "." ++ name.text) n name).enterEntity part
        (declaredEntity n name.text)
      (addFields n.children (opened.applyOptions n)).exit

/-! ## Constants and enums -/

/-- Adds a constant. -/
def addConstant (n : Node) (b : EntityBuilder) : EntityBuilder :=
  match n.children with
  | [] => b
  | name :: rest =>
      { b with document :=
        { b.document with
          constants := b.document.constants.put name.text (Node.valueOrTrue rest.head?) } }

/-- Adds a value to the enum that is open. -/
def addEnumValue (n : Node) (b : EntityBuilder) : EntityBuilder :=
  match n.childText .enumValueName with
  | none => b
  | some name =>
      b.changeTop
        (EntityFrame.addEnumValue
          ⟨name, n.documentation?, (n.child .enumValueValue).map Node.toValue⟩)

/-- Adds a part of an enum. -/
def addEnumPart (b : EntityBuilder) (n : Node) : EntityBuilder :=
  match n.kind with
  | .enumValue => b.addEnumValue n
  | .error => b.skip n .enum
  | _ => b

/-- Adds an enum. -/
def addEnum (n : Node) (b : EntityBuilder) : EntityBuilder :=
  match n.child .enumName with
  | none => b.skip n .enums
  | some name =>
      let record := { Enum.named name.text with documentation := n.documentation? }
      let opened := (b.locateNamed ("enums." ++ name.text) n name).enter (.enum record)
      (n.children.foldl addEnumPart (opened.applyOptions n)).exit

/-! ## Relationships -/

/-- The relationship that a node declares, if it has both ends. -/
def relationship? (kind : String) (n : Node) : Option Relationship :=
  match n.child .relationshipFrom, n.child .relationshipTo with
  | some source, some target => some ⟨kind, .ofNode source, .ofNode target⟩
  | _, _ => none

/-- Adds a relationship. -/
def addRelationship (kind : String) (n : Node) (b : EntityBuilder) : EntityBuilder :=
  match relationship? kind n with
  | none => b.skip n .relationships
  | some r =>
      { b with document := b.document.putRelationship r }.locate
        ("relationships." ++ kind ++ "." ++ r.key) n.span

/-- Adds a part of a block of relationships. -/
def addRelationshipPart (kind : String) (b : EntityBuilder) (n : Node) : EntityBuilder :=
  match n.kind with
  | .relationship => b.addRelationship kind n
  | .error => b.skip n .relationships
  | _ => b

/-- Adds a block of relationships. -/
def addRelationships (n : Node) (b : EntityBuilder) : EntityBuilder :=
  n.children.foldl (addRelationshipPart ((n.childText .relationshipType).getD "")) b

/-! ## Services -/

/-- The method that a node declares under a name, without its options. -/
def declaredMethod (n : Node) (name : String) : Method :=
  let returned := n.child .serviceMethodReturn
  { Method.named name with
    documentation := n.documentation?
    idParameter := if n.hasChild .serviceMethodParameterId then some "id" else none
    parameter := n.childText .serviceMethodParameter
    returnType := returned.bind (·.childText .id)
    returnsArray := returned.any (·.hasChild .arrayMarker)
    returnsOptional := returned.any (·.hasChild .optionalMarker)
    withEvents := ((n.child .serviceMethodEvents).map (·.children.map (·.text))).getD [] }

/-- Adds a method to the service that is open. -/
def addMethod (service : String) (b : EntityBuilder) (n : Node) : EntityBuilder :=
  match n.child .serviceMethodName with
  | none => b
  | some name =>
      let path := "services." ++ service ++ ".methods." ++ name.text
      let opened := (b.locateNamed path n name).enter (.method (declaredMethod n name.text))
      ((opened.applyOptions n).skipErrors .method n.children).exit

/-- The methods of a service that declares none, for all its entities. -/
def impliedMethods (n : Node) (service : String) (aggregates : List String) : List Method :=
  let owner := if n.kind = .serviceLegacy then none else some service
  aggregates.flatMap fun aggregate => Crud.methods aggregate owner

/-- Adds the methods of the service that is open: those declared, or else those implied. -/
def addMethods (n : Node) (service : String) (aggregates : List String) (b : EntityBuilder) :
    EntityBuilder :=
  match n.childrenOf .serviceMethod with
  | [] => (impliedMethods n service aggregates).foldl (fun b m => b.register (.method m)) b
  | declared => declared.foldl (addMethod service) b

/-- Adds a service. -/
def addService (n : Node) (b : EntityBuilder) : EntityBuilder :=
  match n.child .serviceName with
  | none => b.skip n .services
  | some name =>
      let aggregates := ((n.child .serviceAggregates).map (·.children.map (·.text))).getD []
      let record :=
        { Service.named name.text with documentation := n.documentation?, aggregates }
      let opened := (b.locateNamed ("services." ++ name.text) n name).enter (.service record)
      let filled := (opened.applyOptions n).addMethods n name.text aggregates
      (filled.skipErrors .service n.children).exit

/-! ## Documents -/

/-- Adds a top-level node. -/
def addTopLevel (b : EntityBuilder) (n : Node) : EntityBuilder :=
  match n.kind with
  | .globalJavadoc =>
      { b with document :=
        { b.document with
          documentation := some (String.ofList (Text.documentation n.text.toList)) } }
  | .legacyConstant => b.addConstant n
  | .entity => b.addEntity .entities .entityName n
  | .event => b.addEntity .events .eventName n
  | .input => b.addEntity .inputs .inputName n
  | .enum => b.addEnum n
  | .relationships => b.addRelationships n
  | .service | .serviceLegacy => b.addService n
  | _ => b.skip n .document

/-- The builder after a whole tree. -/
def ofTree (tree : Node) : EntityBuilder := tree.children.foldl addTopLevel {}

/-- The model that has been built. -/
def model (b : EntityBuilder) : Model := ⟨b.document.toValue, b.locations, b.diagnostics⟩

end EntityBuilder

/-- The model of a tree of the entity language. -/
def Model.ofEntityTree (tree : Node) : Model := (EntityBuilder.ofTree tree).model

end EntityFlow
