import EntityFlow.Value.Literal
import EntityFlow.Name.Inflection

/-!
# Records of the entity language

What a document says about entities, enums, relationships and services. Each record has a value
with keys of its own, in a fixed order; an attribute that is absent has no key.
-/

namespace EntityFlow

/-- The options of a record in the order of their declaration, each with its name and value. -/
def optionEntries (options : List (String × Value)) : Value :=
  .sequence (options.map fun (name, value) => .mapping [("name", .string name), ("value", value)])

/-- An entry for a string that may be absent. -/
def optionalString (key : String) (s : Option String) : List (String × Value) :=
  Value.optional key (s.map .string)

/-! ## Fields -/

/-- A constraint on a field; the argument is its text, empty if there is none. -/
structure Validation where
  name : String
  argument : String
deriving Repr, DecidableEq

/-- The value of a constraint. -/
def Validation.toValue (v : Validation) : Value :=
  .mapping [("name", .string v.name), ("value", .string v.argument)]

/-- A field of an entity. -/
structure Field where
  name : String
  type : String
  documentation : Option String
  isArray : Bool
  options : OrderedMap Value
  validations : OrderedMap Validation
deriving Repr

namespace Field

/-- The value of a field. -/
def toValue (f : Field) : Value :=
  .mapping
    ([("name", .string f.name), ("type", .string f.type)] ++
      optionalString "javadoc" f.documentation ++
      [("isArray", .boolean f.isArray), ("options", .mapping f.options),
        ("validations", .mapping (f.validations.mapValues Validation.toValue))])

/-- The constraint that a node declares, unless it has no name. -/
def validation? (n : Node) : Option (String × Validation) :=
  (n.childText .fieldValidationName).map fun name =>
    (name, ⟨name, (n.childText .fieldValidationValue).getD ""⟩)

/-- The field that a node declares. A nested body is no part of it. -/
def ofNode (n : Node) : Field :=
  let type := n.child .fieldType
  { name := (n.childText .fieldName).getD ""
    type := (type.bind (·.childText .id)).getD ""
    documentation := n.documentation?
    isArray := type.any (·.hasChild .arrayMarker)
    options := OrderedMap.ofEntries n.options
    validations := OrderedMap.ofEntries ((n.childrenOf .fieldValidation).filterMap validation?) }

end Field

/-! ## Entities -/

/-- An entity, or an event or input, which look the same. -/
structure Entity where
  name : String := ""
  className : String := ""
  instanceName : String := ""
  classNamePlural : String := ""
  instanceNamePlural : String := ""
  kebabCase : String := ""
  kebabCasePlural : String := ""
  tableName : Option String := none
  documentation : Option String := none
  /-- The channel of an event. -/
  channel : Option String := none
  options : OrderedMap Value := []
  fields : OrderedMap Field := []
deriving Repr

namespace Entity

/-- The entity of a name, with all names that follow from it. -/
def named (name : String) : Entity :=
  let className := Name.upperCamel name
  let instanceName := Name.lowerCamel className
  let kebabCase := Name.kebab name
  { name, className, instanceName, kebabCase
    classNamePlural := Name.plural className
    instanceNamePlural := Name.plural instanceName
    kebabCasePlural := Name.plural kebabCase }

/-- The value of an entity. -/
def toValue (e : Entity) : Value :=
  .mapping
    ([("name", .string e.name), ("className", .string e.className),
        ("instanceName", .string e.instanceName), ("classNamePlural", .string e.classNamePlural),
        ("instanceNamePlural", .string e.instanceNamePlural), ("kebabCase", .string e.kebabCase),
        ("kebabCasePlural", .string e.kebabCasePlural)] ++
      optionalString "tableName" e.tableName ++
      optionalString "javadoc" e.documentation ++
      optionalString "channel" e.channel ++
      [("options", .mapping e.options), ("fields", .mapping (e.fields.mapValues Field.toValue))])

end Entity

/-! ## Enums -/

/-- A value of an enum. -/
structure EnumValue where
  name : String
  documentation : Option String
  value : Option Value
deriving Repr

/-- The value of a value of an enum. -/
def EnumValue.toValue (v : EnumValue) : Value :=
  .mapping
    ([("name", .string v.name)] ++ optionalString "javadoc" v.documentation ++
      Value.optional "value" v.value)

/-- An enum. -/
structure Enum where
  name : String
  className : String
  documentation : Option String := none
  options : OrderedMap Value := []
  values : OrderedMap EnumValue := []
deriving Repr

namespace Enum

/-- The enum of a name. -/
def named (name : String) : Enum := { name, className := Name.upperCamel name }

/-- The value of an enum. -/
def toValue (e : Enum) : Value :=
  .mapping
    ([("name", .string e.name), ("className", .string e.className)] ++
      optionalString "javadoc" e.documentation ++
      [("options", .mapping e.options), ("values", .mapping (e.values.mapValues EnumValue.toValue))])

end Enum

/-! ## Relationships -/

/-- One end of a relationship. -/
structure RelationshipEnd where
  /-- The text of the definition, the entity with its field. -/
  definition : String
  entity : String
  field : Option String
  required : Bool
  documentation : Option String
  options : OrderedMap Value
deriving Repr

/-- The end of a relationship that a node declares. -/
def RelationshipEnd.ofNode (n : Node) : RelationshipEnd :=
  let definition := n.child .relationshipDefinition
  { definition := (definition.map (·.text)).getD ""
    entity := (definition.bind (·.childText .relationshipEntityName)).getD ""
    field := definition.bind (·.childText .relationshipFieldName)
    required := definition.any (·.hasChild .relationshipRequired)
    documentation := n.documentation?
    options := OrderedMap.ofEntries n.options }

/-- A relationship between two entities. -/
structure Relationship where
  kind : String
  source : RelationshipEnd
  target : RelationshipEnd
deriving Repr

namespace Relationship

/-- The key under which a relationship is kept among those of its kind. -/
def key (r : Relationship) : String :=
  r.kind ++ "_" ++ r.source.definition ++ "_" ++ r.target.definition

/-- The value of a relationship. -/
def toValue (r : Relationship) : Value :=
  .mapping
    ([("type", .string r.kind), ("from", .string r.source.entity),
        ("to", .string r.target.entity)] ++
      optionalString "commentInFrom" r.source.documentation ++
      optionalString "commentInTo" r.target.documentation ++
      [("options", .mapping [("source", .mapping r.source.options),
          ("destination", .mapping r.target.options)])] ++
      optionalString "injectedFieldInFrom" r.source.field ++
      optionalString "injectedFieldInTo" r.target.field ++
      [("isInjectedFieldInFromRequired", .boolean r.source.required),
        ("isInjectedFieldInToRequired", .boolean r.target.required)])

end Relationship

/-! ## Services -/

/-- A method of a service. -/
structure Method where
  name : String
  /-- The service of a method that was not declared but follows from the service's entities. -/
  serviceName : Option String := none
  documentation : Option String := none
  idParameter : Option String := none
  parameter : Option String := none
  returnType : Option String := none
  returnsArray : Bool := false
  returnsOptional : Bool := false
  paginated : Bool := false
  withEvents : List String := []
  options : OrderedMap Value := []
  optionsList : List (String × Value) := []
deriving Repr

namespace Method

/-- The method of a name. -/
def named (name : String) : Method := { name }

/-- Adds an option to the map and to the list of options. The option `paginated` also says whether
the method is paginated; a value that is no truth value says that it is. -/
def addOption (m : Method) (name : String) (value : Value) : Method :=
  { m with
    paginated := if name = "paginated" then value.boolean?.getD true else m.paginated
    options := m.options.put name value
    optionsList := m.optionsList ++ [(name, value)] }

/-- The value of a method. -/
def toValue (m : Method) : Value :=
  .mapping
    ([("name", .string m.name)] ++
      optionalString "serviceName" m.serviceName ++
      optionalString "javadoc" m.documentation ++
      optionalString "paramId" m.idParameter ++
      optionalString "parameter" m.parameter ++
      optionalString "returnType" m.returnType ++
      [("returnTypeIsArray", .boolean m.returnsArray),
        ("returnTypeIsOptional", .boolean m.returnsOptional), ("paginated", .boolean m.paginated),
        ("withEvents", .strings m.withEvents), ("options", .mapping m.options),
        ("optionsList", optionEntries m.optionsList)])

end Method

/-- A service. -/
structure Service where
  name : String
  className : String
  documentation : Option String := none
  options : OrderedMap Value := []
  aggregates : List String := []
  methods : OrderedMap Method := []
deriving Repr

namespace Service

/-- The service of a name. -/
def named (name : String) : Service := { name, className := Name.upperCamel name }

/-- The value of a service. -/
def toValue (s : Service) : Value :=
  .mapping
    ([("name", .string s.name), ("className", .string s.className)] ++
      optionalString "javadoc" s.documentation ++
      [("options", .mapping s.options), ("aggregates", .strings s.aggregates),
        ("methods", .mapping (s.methods.mapValues Method.toValue))])

end Service

/-! ## Documents -/

/-- A document of the entity language. -/
structure EntityDocument where
  documentation : Option String := none
  constants : OrderedMap Value := []
  entities : OrderedMap Entity := []
  enums : OrderedMap Enum := []
  /-- The relationships of each kind. -/
  relationships : OrderedMap (OrderedMap Relationship) := []
  services : OrderedMap Service := []
  events : OrderedMap Entity := []
  inputs : OrderedMap Entity := []
deriving Repr

/-- The value of a document. -/
def EntityDocument.toValue (d : EntityDocument) : Value :=
  .mapping
    (optionalString "javadoc" d.documentation ++
      [("constants", .mapping d.constants),
        ("entities", .mapping (d.entities.mapValues Entity.toValue)),
        ("enums", .mapping (d.enums.mapValues Enum.toValue)),
        ("relationships", .mapping (d.relationships.mapValues fun partition =>
          .mapping (partition.mapValues Relationship.toValue))),
        ("services", .mapping (d.services.mapValues Service.toValue)),
        ("events", .mapping (d.events.mapValues Entity.toValue)),
        ("inputs", .mapping (d.inputs.mapValues Entity.toValue))])

end EntityFlow
