import EntityFlow.Grammar.Run
import EntityFlow.Grammar.Entity
import EntityFlow.Grammar.Flow
import EntityFlow.Token.Lexer
import EntityFlow.Language

/-!
# Reading a source

`Parse.ofTokens` reads the tokens of a source of either language into a tree and the list of the
faults that were recovered from. It always succeeds; `Parse.ofSource?` fails where the text cannot
be cut into tokens.
-/

namespace EntityFlow

/-- The grammar of a construct that contains itself. -/
def Rule.grammar : Rule → Grammar
  | .value => Grammar.valueRule
  | .argument => Grammar.argumentRule
  | .field => Grammar.fieldRule
  | .ruleItem => Grammar.Flow.ruleItemRule

namespace Language

/-- The grammar of a whole source. -/
def grammar : Language → Grammar
  | .entity => Grammar.Entity.source
  | .flow => Grammar.Flow.source

/-- The kind of the root node. -/
def rootKind : Language → Node.Kind
  | .entity => .zdl
  | .flow => .zfl

end Language

/-- A syntax tree and the faults recorded while it was read. -/
structure Parse where
  tree : Node
  faults : List Fault
deriving Repr

namespace Parse

/-- How many faults are recorded before everything that is left is given up. -/
def defaultLimit : Nat := 10

/-- Reads by a grammar, recording at most `limit` faults. -/
def read (limit : Nat) (g : Grammar) (r : Reading) : Outcome :=
  g.run limit (Rule.run Rule.grammar limit) 0 r

/-- The tree of the tokens of a source. At least one fault is wanted. -/
def ofTokens (language : Language) (limit : Nat) (tokens : List Token) : Parse :=
  let first := Cursor.start tokens
  let outcome := read (max limit 1) language.grammar ⟨first, []⟩
  { tree := Node.ofTokens language.rootKind first outcome.reading.cursor outcome.yield
    faults := outcome.reading.faults }

/-- The tree of a source text. -/
def ofSource? (language : Language) (limit : Nat) (source : String) :
    Except LexicalFault Parse :=
  (Token.lex source).map (ofTokens language limit)

end Parse

end EntityFlow
