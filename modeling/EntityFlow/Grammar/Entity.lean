import EntityFlow.Grammar.Shared

/-!
# The entity language

Entities, enums, relationships, services, events and inputs, after optional constants in the old
style.
-/

namespace EntityFlow.Grammar.Entity

/-- The words that start a declaration. -/
def keywords : List String := ["entity", "enum", "relationship", "service", "event", "input"]

/-- A constant: a name without small letters and its value. -/
def constant : Grammar :=
  tree .legacyConstant (list [leaf .id, symbol .eq, simpleValue])

/-- The look of a constant. -/
def seesConstant : Look := .and (sees .word) (.and (.kind 1 .eq) .capitals)

/-- What follows the documentation and options of an entity. -/
def entity : Grammar := list [take, name .entityName, tableName, fields]

/-- One value of an enum. -/
def enumValue : Grammar :=
  tree .enumValue
    (list [
      javadoc,
      name .enumValueName,
      opt (sees .lParen) (list [take, tree .enumValueValue simpleValue, symbol .rParen]),
      opt (sees .comma) take,
      suffixJavadoc])

/-- What follows the documentation and options of an enum. -/
def enumeration : Grammar := list [take, name .enumName, block enumValue]

/-- An entity with the name of its field for the relationship, if it has one. -/
def relationshipDefinition : Grammar :=
  tree .relationshipDefinition
    (seq (name .relationshipEntityName)
      (opt (sees .lBrace)
        (list [
          take,
          name .relationshipFieldName,
          opt (seesWord "required") (leaf .relationshipRequired),
          symbol .rBrace])))

/-- One end of a relationship. -/
def relationshipEnd (k : Node.Kind) : Grammar :=
  tree k (list [javadoc, options, relationshipDefinition])

/-- A relationship of two entities. -/
def relationship : Grammar :=
  tree .relationship
    (list [
      relationshipEnd .relationshipFrom,
      word "to",
      relationshipEnd .relationshipTo,
      opt (sees .comma) take])

/-- What follows the documentation and options of a block of relationships. -/
def relationships : Grammar := list [take, name .relationshipType, block relationship]

/-- The names of the entities that a service is for. -/
def aggregates : Grammar := tree .serviceAggregates (names .id)

/-- The type that a method returns. -/
def methodReturn : Grammar :=
  tree .serviceMethodReturn
    (list [name .id, arrayMarker, opt (sees .question) (leaf .optionalMarker)])

/-- The events of a method: names and bracketed lists of names, all starting on one line. -/
def methodEvents : Grammar :=
  tree .serviceMethodEvents
    (seq take
      (atLeastOne .methodEvent
        (many (.and .onLine (.or (sees .word) (.or (sees .lBracket) (sees .comma))))
          (choose (sees .word) (name .serviceMethodEvent)
            (choose (sees .lBracket)
              (list [
                take,
                many (sees .word) (seq (name .serviceMethodEvent) (opt (sees .comma) take)),
                symbol .rBracket])
              take)))))

/-- The parameters of a method: an identity, a type, or both. -/
def methodParameters : Grammar :=
  choose (seesWord "id")
    (seq (leaf .serviceMethodParameterId)
      (opt (sees .comma) (seq take (name .serviceMethodParameter))))
    (opt (sees .word) (name .serviceMethodParameter))

/-- A method of a service. What it returns and the events it raises start on the line of its
closing parenthesis. -/
def serviceMethod : Grammar :=
  tree .serviceMethod
    (list [
      javadoc,
      options,
      name .serviceMethodName,
      symbol .lParen,
      methodParameters,
      symbol .rParen,
      markLine
        (seq
          (opt (.and (sees .word) (.and (.not (seesWord "withEvents")) .onLine)) methodReturn)
          (opt (.and (seesWord "withEvents") .onLine) methodEvents)),
      opt (sees .lBrace) (block option),
      opt (sees .comma) take,
      suffixJavadoc])

/-- What follows the documentation and options of a service. -/
def service : Grammar :=
  list [
    take,
    name .serviceName,
    word "for",
    symbol .lParen,
    aggregates,
    symbol .rParen,
    opt (sees .lBrace) (block serviceMethod)]

/-- What follows the documentation and options of a service in the old style. -/
def legacyService : Grammar := list [take, aggregates, word "with", name .serviceName]

/-- The channel of an event: any tokens but braces up to the closing parenthesis, at least one. -/
def eventChannel : Grammar :=
  list [
    take,
    choose (sees .rParen) (fail .channelName)
      (tree .eventChannel
        (many (.not (.or (sees .rParen) (.or (sees .eof) (sees .lBrace)))) take)),
    guarded (sees .rParen) .channelEnd take]

/-- What follows the documentation and options of an event. -/
def event : Grammar := list [take, name .eventName, opt (sees .lParen) eventChannel, fields]

/-- What follows the documentation and options of an input. -/
def input : Grammar := list [take, name .inputName, fields]

/-- A declaration. -/
def declaration : Grammar :=
  alternatives (seq javadoc options) .declaration
    [⟨seesWord "entity", .entity, entity⟩,
      ⟨seesWord "enum", .enum, enumeration⟩,
      ⟨seesWord "relationship", .relationships, relationships⟩,
      ⟨.and (seesWord "service") (.word 2 ["for"]), .service, service⟩,
      ⟨seesWord "service", .serviceLegacy, legacyService⟩,
      ⟨seesWord "event", .event, event⟩,
      ⟨seesWord "input", .input, input⟩]

/-- A whole source. -/
def source : Grammar :=
  list [
    globalJavadoc keywords,
    many seesConstant (recovering (.construct keywords) constant),
    many seesMore (recovering (.construct keywords) declaration)]

end EntityFlow.Grammar.Entity
