import EntityFlow.Source.Span

/-!
# Tokens

The lexical elements that both languages share. A token holds its text as it stands in the source,
quotes, escapes and comment marks included.
-/

namespace EntityFlow

/-- The kinds of token. -/
inductive Token.Kind
  | word
  | singleQuoted
  | doubleQuoted
  | int
  | number
  | javadoc
  | lBrace
  | rBrace
  | lBracket
  | rBracket
  | lParen
  | rParen
  | colon
  | comma
  | dot
  | eq
  | question
  | at
  | star
  | unknown
  | eof
deriving Repr, DecidableEq

/-- A lexical element with its source text and place. -/
structure Token where
  kind : Token.Kind
  text : String
  span : Span
deriving Repr, DecidableEq

namespace Token

/-- Whether a token is the given word. -/
def isWord (t : Token) (w : String) : Bool := t.kind == .word && t.text == w

/-- The end of an empty source. -/
def endOfEmpty : Token := ⟨.eof, "", ⟨0, 0, 1, 1, 1, 1⟩⟩

/-- The punctuation character of a kind; kinds that are no punctuation have none. -/
def Kind.symbol : Kind → String
  | .lBrace => "\x7b"
  | .rBrace => "\x7d"
  | .lBracket => "["
  | .rBracket => "]"
  | .lParen => "("
  | .rParen => ")"
  | .colon => ":"
  | .comma => ","
  | .dot => "."
  | .eq => "="
  | .question => "?"
  | .at => "@"
  | .star => "*"
  | _ => ""

/-- The kind of a character that is a token of its own. -/
def Kind.ofChar : Char → Kind
  | '\x7b' => .lBrace
  | '\x7d' => .rBrace
  | '[' => .lBracket
  | ']' => .rBracket
  | '(' => .lParen
  | ')' => .rParen
  | ':' => .colon
  | ',' => .comma
  | '.' => .dot
  | '=' => .eq
  | '?' => .question
  | '@' => .at
  | '*' => .star
  | _ => .unknown

end Token

end EntityFlow
