import EntityFlow.Grammar.Basic

/-!
# Constructs of both languages

Names, documentation, options, values and fields. A look that ends a construct early is stated
where the construct is: validations end with the line of their field's type, an option's value
opens directly after the option's name.
-/

namespace EntityFlow.Grammar

/-! ## Looks -/

/-- The current token is of a kind. -/
def sees (k : Token.Kind) : Look := .kind 0 k

/-- The current token is a given word. -/
def seesWord (w : String) : Look := .word 0 [w]

/-- The current token is a string. -/
def seesString : Look := .or (sees .singleQuoted) (sees .doubleQuoted)

/-- The end token is not reached. -/
def seesMore : Look := .not (sees .eof)

/-! ## Names -/

/-- A name: words joined by points that stand directly after a word. -/
def name (k : Node.Kind) : Grammar :=
  tree k (guarded (sees .word) .identifier
    (seq take (many (.and (sees .dot) (.and (.kind 1 .word) .adjacent)) (seq take take))))

/-- Names between commas. -/
def names (k : Node.Kind) : Grammar := commaSeparated (name k)

/-! ## Values -/

/-- The words that a value holds as keywords. -/
def keywords : List String :=
  ["entity", "enum", "relationship", "service", "event", "input", "for", "with", "withEvents",
    "to", "flow", "systems", "start", "when", "command", "policy", "if", "else", "end", "import",
    "config", "zdl", "commands", "events"]

/-- A string, number, truth value, keyword or name. -/
def simpleValue : Grammar :=
  tree .value
    (choose (sees .singleQuoted) (leaf .singleQuoted)
    (choose (sees .doubleQuoted) (leaf .doubleQuoted)
    (choose (sees .int) (leaf .int)
    (choose (sees .number) (leaf .number)
    (choose (seesWord "true") (leaf .trueLiteral)
    (choose (seesWord "false") (leaf .falseLiteral)
    (choose (.word 0 keywords) (leaf .keyword)
    (guarded (sees .word) .value (name .id)))))))))

/-- A string. -/
def stringValue : Grammar := guarded seesString .string simpleValue

/-- Any value. -/
def value : Grammar := call .value

/-- Values in brackets. -/
def array : Grammar :=
  tree .array (list [symbol .lBracket, commaTerminated .rBracket value, symbol .rBracket])

/-- A key and its value. -/
def pair : Grammar :=
  tree .pair
    (list [
      choose (sees .word) (name .id)
        (choose (sees .singleQuoted) (leaf .singleQuoted)
          (guarded (sees .doubleQuoted) .key (leaf .doubleQuoted))),
      symbol .colon,
      value])

/-- Keys and values in braces. -/
def object : Grammar :=
  tree .object (list [symbol .lBrace, commaTerminated .rBrace pair, symbol .rBrace])

/-- The grammar of any value. -/
def valueRule : Grammar :=
  choose (sees .lBracket) array (choose (sees .lBrace) object simpleValue)

/-! ## Documentation and options -/

/-- The documentation in front of a construct: of several comments the last. -/
def javadoc : Grammar := last (many (sees .javadoc) (leaf .javadoc))

/-- Documentation behind a construct, on the same line. -/
def suffixJavadoc : Grammar := opt (.and (sees .javadoc) .sameLine) (leaf .suffixJavadoc)

/-- Documentation at the top of a source that introduces no construct. -/
def globalJavadoc (keywords : List String) : Grammar :=
  opt (.and (sees .javadoc) (.not (.or (.kind 1 .at) (.word 1 keywords)))) (leaf .globalJavadoc)

/-- An option with or without a value. -/
def option : Grammar :=
  tree .option
    (list [
      symbol .at,
      guarded (sees .word) .optionName (name .optionName),
      opt (.and (sees .lParen) .adjacent)
        (list [take, tree .optionValue value, symbol .rParen])])

/-- The options in front of a construct. -/
def options : Grammar := many (sees .at) option

/-! ## Fields -/

/-- The empty brackets that mark an array type. -/
def arrayMarker : Grammar :=
  opt (.and (sees .lBracket) (.kind 1 .rBracket)) (tree .arrayMarker (seq take take))

/-- The type of a field. -/
def fieldType : Grammar := tree .fieldType (seq (name .id) arrayMarker)

/-- A table name in parentheses. -/
def tableName : Grammar :=
  opt (sees .lParen) (list [take, name .tableName, symbol .rParen])

/-- The look of a nested body: an open brace, or one after a table name. -/
def seesNestedBody : Look :=
  .or (sees .lBrace)
    (.and (sees .lParen) (.and (.kind 1 .word) (.and (.kind 2 .rParen) (.kind 3 .lBrace))))

/-- A block of fields. -/
def fields : Grammar := block (call .field)

/-- The body of a field that is an entity of its own. -/
def nestedField : Grammar := tree .nestedField (seq tableName fields)

/-- The tokens that no validation argument holds. -/
def seesArgumentBreak : Look := .or (sees .eof) (.or (sees .lBrace) (sees .rBrace))

/-- The closing parenthesis of a validation argument. -/
def argumentEnd : Grammar := guarded (sees .rParen) .validationArgument take

/-- The grammar of a validation argument: any tokens but braces, parentheses in pairs. -/
def argumentRule : Grammar :=
  many (.and (.not (sees .rParen)) (.not seesArgumentBreak))
    (choose (sees .lParen) (list [take, call .argument, argumentEnd]) take)

/-- A validation with or without an argument. -/
def validation : Grammar :=
  tree .fieldValidation
    (seq (leaf .fieldValidationName)
      (opt (.and (sees .lParen) .adjacent)
        (list [take, tree .fieldValidationValue (call .argument), argumentEnd])))

/-- The grammar of a field. -/
def fieldRule : Grammar :=
  tree .field
    (list [
      javadoc,
      options,
      name .fieldName,
      fieldType,
      markLine (choose seesNestedBody nestedField (many (.and (sees .word) .onLine) validation)),
      opt (sees .comma) take,
      suffixJavadoc])

end EntityFlow.Grammar
