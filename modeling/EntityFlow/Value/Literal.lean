import EntityFlow.Value.Basic
import EntityFlow.Tree.Basic
import EntityFlow.Text.Quoted
import EntityFlow.Text.Documentation

/-!
# The values of syntax trees

Every tree stands for a value. A literal stands for what it says; a tree that is no literal, and a
number that is none, stand for their text.
-/

namespace EntityFlow

/-- The first candidate that is present. -/
def firstPresent {α : Type} (candidates : List (Option α)) : Option α := candidates.findSome? id

namespace Node

/-- The text of a quoted node without its quotes. -/
def unquoted (quote : Char) (text : String) : String :=
  String.ofList (Text.unquote quote text.toList)

/-- The key that a node stands for in a pair. -/
def keyText (n : Node) : String :=
  match n.kind with
  | .singleQuoted => unquoted '\'' n.text
  | .doubleQuoted => unquoted '"' n.text
  | _ => n.text

/-- The value of a node without parts, or of one whose parts do not matter. -/
def leafValue (k : Kind) (text : String) : Value :=
  match k with
  | .singleQuoted => .string (unquoted '\'' text)
  | .doubleQuoted => .string (unquoted '"' text)
  | .int => (Integer.read? text.toList).elim (.string text) .integer
  | .number => (Decimal.read? text.toList).elim (.string text) .decimal
  | .trueLiteral => .boolean true
  | .falseLiteral => .boolean false
  | _ => .string text

mutual

/-- The value of a tree. Of two pairs with one key the last counts, in the place of the first; a
key without a value is true. -/
def toValue : Node → Value
  | ⟨.value, text, _, parts⟩ => firstValue text parts
  | ⟨.optionValue, text, _, parts⟩ => firstValue text parts
  | ⟨.enumValueValue, text, _, parts⟩ => firstValue text parts
  | ⟨.importValue, text, _, parts⟩ => firstValue text parts
  | ⟨.array, _, _, parts⟩ => .sequence (toValues parts)
  | ⟨.arrayPlain, _, _, parts⟩ => .sequence (toValues parts)
  | ⟨.object, _, _, parts⟩ => .mapping (toEntries OrderedMap.empty parts)
  | ⟨.pairs, _, _, parts⟩ => .mapping (toEntries OrderedMap.empty parts)
  | ⟨k, text, _, _⟩ => leafValue k text

/-- The value of the first part, or the text if there is none. -/
def firstValue (text : String) : List Node → Value
  | [] => .string text
  | inner :: _ => toValue inner

/-- The values of parts. -/
def toValues : List Node → List Value
  | [] => []
  | part :: rest => toValue part :: toValues rest

/-- A map with the entries of the pairs among the parts put into it. -/
def toEntries (m : OrderedMap Value) : List Node → OrderedMap Value
  | [] => m
  | ⟨.pair, _, _, key :: value :: _⟩ :: rest => toEntries (m.put key.keyText (toValue value)) rest
  | ⟨.pair, _, _, [key]⟩ :: rest => toEntries (m.put key.keyText (.boolean true)) rest
  | _ :: rest => toEntries m rest

end

/-- The value of a node that may be absent: absence stands for true. -/
def valueOrTrue (n : Option Node) : Value := n.elim (.boolean true) toValue

/-- The string that a node stands for: the string of its value, or its text. -/
def toText (n : Node) : String := n.toValue.string?.getD n.text

/-- The text of the documentation in front of a node's construct, or else behind it. -/
def documentation? (n : Node) : Option String :=
  (firstPresent [n.childText .javadoc, n.childText .suffixJavadoc]).map fun comment =>
    String.ofList (Text.documentation comment.toList)

/-- The options of a node with their values, in order. -/
def options (n : Node) : List (String × Value) :=
  (n.childrenOf .option).filterMap fun option =>
    (option.childText .optionName).map fun name => (name, valueOrTrue (option.child .optionValue))

end Node

end EntityFlow
