import EntityFlow.Source.Span

/-!
# Syntax trees

The trees that the grammars make and the document builders read. A node holds the joined text of
its tokens without blanks and documentation, its place and its parts in order. Punctuation shows
only in the text; it is no part.
-/

namespace EntityFlow

/-- The kinds of node. -/
inductive Node.Kind
  -- literals
  | id
  | keyword
  | singleQuoted
  | doubleQuoted
  | int
  | number
  | trueLiteral
  | falseLiteral
  -- values
  | value
  | array
  | arrayPlain
  | object
  | pairs
  | pair
  -- parts of declarations of both languages
  | globalJavadoc
  | javadoc
  | suffixJavadoc
  | option
  | optionName
  | optionValue
  | field
  | fieldName
  | fieldType
  | arrayMarker
  | fieldValidation
  | fieldValidationName
  | fieldValidationValue
  | nestedField
  | tableName
  -- the entity language
  | zdl
  | legacyConstant
  | entity
  | entityName
  | enum
  | enumName
  | enumValue
  | enumValueName
  | enumValueValue
  | relationships
  | relationshipType
  | relationship
  | relationshipFrom
  | relationshipTo
  | relationshipDefinition
  | relationshipEntityName
  | relationshipFieldName
  | relationshipRequired
  | service
  | serviceLegacy
  | serviceName
  | serviceAggregates
  | serviceMethod
  | serviceMethodName
  | serviceMethodParameterId
  | serviceMethodParameter
  | serviceMethodReturn
  | optionalMarker
  | serviceMethodEvents
  | serviceMethodEvent
  | event
  | eventName
  | eventChannel
  | input
  | inputName
  -- the flow language
  | zfl
  | importDecl
  | importKey
  | importValue
  | config
  | configOption
  | flow
  | flowName
  | flowSystems
  | flowSystem
  | flowSystemName
  | flowSystemZdl
  | flowSystemService
  | flowSystemServiceName
  | flowSystemServiceCommands
  | flowSystemEvents
  | flowStart
  | flowStartName
  | flowWhen
  | flowWhenTrigger
  | flowWhenEventTrigger
  | flowWhenCommand
  | flowWhenEvent
  | flowWhenPolicy
  | flowWhenIf
  | flowWhenElseIf
  | flowWhenElse
  | flowEnd
  | flowEndCompleted
  | flowEndSuspended
  | flowEndCancelled
  -- input that no construct accepts
  | error
deriving Repr, DecidableEq

/-- A syntax tree. -/
structure Node where
  kind : Node.Kind
  text : String
  span : Span
  children : List Node
deriving Repr

namespace Node

/-- The name by which messages call a kind. -/
def Kind.name : Kind → String
  | .id => "Id"
  | .keyword => "Keyword"
  | .singleQuoted => "SingleQuoted"
  | .doubleQuoted => "DoubleQuoted"
  | .int => "Int"
  | .number => "Number"
  | .trueLiteral => "True"
  | .falseLiteral => "False"
  | .value => "Value"
  | .array => "Array"
  | .arrayPlain => "ArrayPlain"
  | .object => "Object"
  | .pairs => "Pairs"
  | .pair => "Pair"
  | .globalJavadoc => "GlobalJavadoc"
  | .javadoc => "Javadoc"
  | .suffixJavadoc => "SuffixJavadoc"
  | .option => "Option"
  | .optionName => "OptionName"
  | .optionValue => "OptionValue"
  | .field => "Field"
  | .fieldName => "FieldName"
  | .fieldType => "FieldType"
  | .arrayMarker => "ArrayMarker"
  | .fieldValidation => "FieldValidation"
  | .fieldValidationName => "FieldValidationName"
  | .fieldValidationValue => "FieldValidationValue"
  | .nestedField => "NestedField"
  | .tableName => "TableName"
  | .zdl => "Zdl"
  | .legacyConstant => "LegacyConstant"
  | .entity => "Entity"
  | .entityName => "EntityName"
  | .enum => "Enum"
  | .enumName => "EnumName"
  | .enumValue => "EnumValue"
  | .enumValueName => "EnumValueName"
  | .enumValueValue => "EnumValueValue"
  | .relationships => "Relationships"
  | .relationshipType => "RelationshipType"
  | .relationship => "Relationship"
  | .relationshipFrom => "RelationshipFrom"
  | .relationshipTo => "RelationshipTo"
  | .relationshipDefinition => "RelationshipDefinition"
  | .relationshipEntityName => "RelationshipEntityName"
  | .relationshipFieldName => "RelationshipFieldName"
  | .relationshipRequired => "RelationshipRequired"
  | .service => "Service"
  | .serviceLegacy => "ServiceLegacy"
  | .serviceName => "ServiceName"
  | .serviceAggregates => "ServiceAggregates"
  | .serviceMethod => "ServiceMethod"
  | .serviceMethodName => "ServiceMethodName"
  | .serviceMethodParameterId => "ServiceMethodParameterId"
  | .serviceMethodParameter => "ServiceMethodParameter"
  | .serviceMethodReturn => "ServiceMethodReturn"
  | .optionalMarker => "OptionalMarker"
  | .serviceMethodEvents => "ServiceMethodEvents"
  | .serviceMethodEvent => "ServiceMethodEvent"
  | .event => "Event"
  | .eventName => "EventName"
  | .eventChannel => "EventChannel"
  | .input => "Input"
  | .inputName => "InputName"
  | .zfl => "Zfl"
  | .importDecl => "Import"
  | .importKey => "ImportKey"
  | .importValue => "ImportValue"
  | .config => "Config"
  | .configOption => "ConfigOption"
  | .flow => "Flow"
  | .flowName => "FlowName"
  | .flowSystems => "FlowSystems"
  | .flowSystem => "FlowSystem"
  | .flowSystemName => "FlowSystemName"
  | .flowSystemZdl => "FlowSystemZdl"
  | .flowSystemService => "FlowSystemService"
  | .flowSystemServiceName => "FlowSystemServiceName"
  | .flowSystemServiceCommands => "FlowSystemServiceCommands"
  | .flowSystemEvents => "FlowSystemEvents"
  | .flowStart => "FlowStart"
  | .flowStartName => "FlowStartName"
  | .flowWhen => "FlowWhen"
  | .flowWhenTrigger => "FlowWhenTrigger"
  | .flowWhenEventTrigger => "FlowWhenEventTrigger"
  | .flowWhenCommand => "FlowWhenCommand"
  | .flowWhenEvent => "FlowWhenEvent"
  | .flowWhenPolicy => "FlowWhenPolicy"
  | .flowWhenIf => "FlowWhenIf"
  | .flowWhenElseIf => "FlowWhenElseIf"
  | .flowWhenElse => "FlowWhenElse"
  | .flowEnd => "FlowEnd"
  | .flowEndCompleted => "FlowEndCompleted"
  | .flowEndSuspended => "FlowEndSuspended"
  | .flowEndCancelled => "FlowEndCancelled"
  | .error => "Error"

/-- Every kind once. -/
def Kind.all : List Kind := [
    .id, .keyword, .singleQuoted, .doubleQuoted, .int, .number, .trueLiteral, .falseLiteral,
    .value, .array, .arrayPlain, .object, .pairs, .pair, .globalJavadoc, .javadoc, .suffixJavadoc,
    .option, .optionName, .optionValue, .field, .fieldName, .fieldType, .arrayMarker,
    .fieldValidation, .fieldValidationName, .fieldValidationValue, .nestedField, .tableName, .zdl,
    .legacyConstant, .entity, .entityName, .enum, .enumName, .enumValue, .enumValueName,
    .enumValueValue, .relationships, .relationshipType, .relationship, .relationshipFrom,
    .relationshipTo, .relationshipDefinition, .relationshipEntityName, .relationshipFieldName,
    .relationshipRequired, .service, .serviceLegacy, .serviceName, .serviceAggregates,
    .serviceMethod, .serviceMethodName, .serviceMethodParameterId, .serviceMethodParameter,
    .serviceMethodReturn, .optionalMarker, .serviceMethodEvents, .serviceMethodEvent, .event,
    .eventName, .eventChannel, .input, .inputName, .zfl, .importDecl, .importKey, .importValue,
    .config, .configOption, .flow, .flowName, .flowSystems, .flowSystem, .flowSystemName,
    .flowSystemZdl, .flowSystemService, .flowSystemServiceName, .flowSystemServiceCommands,
    .flowSystemEvents, .flowStart, .flowStartName, .flowWhen, .flowWhenTrigger,
    .flowWhenEventTrigger, .flowWhenCommand, .flowWhenEvent, .flowWhenPolicy, .flowWhenIf,
    .flowWhenElseIf, .flowWhenElse, .flowEnd, .flowEndCompleted, .flowEndSuspended,
    .flowEndCancelled, .error]

/-- The kind of a name. -/
def Kind.ofName? (name : String) : Option Kind := Kind.all.find? (·.name == name)

/-- The kinds whose nodes hold a documentation comment as their text. -/
def Kind.isDocumentation (k : Kind) : Bool :=
  k == .javadoc || k == .suffixJavadoc || k == .globalJavadoc

/-- The first part of a kind. -/
def child (n : Node) (k : Kind) : Option Node := n.children.find? (·.kind == k)

/-- The parts of a kind in order. -/
def childrenOf (n : Node) (k : Kind) : List Node := n.children.filter (·.kind == k)

/-- The text of the first part of a kind. -/
def childText (n : Node) (k : Kind) : Option String := (n.child k).map (·.text)

/-- Whether there is a part of a kind. -/
def hasChild (n : Node) (k : Kind) : Bool := (n.child k).isSome

end Node

end EntityFlow
