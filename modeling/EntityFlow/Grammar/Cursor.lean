import EntityFlow.Grammar.Basic
import EntityFlow.Text.Property

/-!
# Cursors

A cursor is a place in a list of tokens: the token taken last and the tokens ahead, of which the
last is the end token. `advance` never passes the end token. The recoveries are ways to move a
cursor on after a fault.
-/

namespace EntityFlow

/-- The line on which the token before ends; the first line if there is none. -/
def Token.lastLine (before : Option Token) : Nat := (before.map (·.span.endLine)).getD 1

/-- A place in a list of tokens. -/
structure Cursor where
  /-- The token taken last. -/
  before : Option Token
  /-- The tokens that are not taken yet. -/
  ahead : List Token
deriving Repr, DecidableEq

namespace Cursor

/-- The place in front of the first token. -/
def start (tokens : List Token) : Cursor := ⟨none, tokens⟩

/-- The current token. -/
def current (c : Cursor) : Token := c.ahead.headD .endOfEmpty

/-- The token `n` places ahead; the end token stands at every place after it, too. -/
def nth (c : Cursor) (n : Nat) : Token :=
  match c.ahead[n]? with
  | some t => t
  | none => c.ahead.getLastD .endOfEmpty

/-- How many tokens are ahead. -/
def remaining (c : Cursor) : Nat := c.ahead.length

/-- The line on which the token before ends. -/
def lineBefore (c : Cursor) : Nat := Token.lastLine c.before

/-- Whether the current token starts where the token before ends. -/
def adjacent (c : Cursor) : Bool := c.before.any (·.span.stop == c.current.span.start)

/-- The next place. The end token is never passed. -/
def advance : Cursor → Cursor
  | ⟨_, t :: u :: rest⟩ => ⟨some t, u :: rest⟩
  | c => c

/-- The tokens between an earlier place and a later one. -/
def taken (first last : Cursor) : List Token :=
  first.ahead.take (first.remaining - last.remaining)

end Cursor

/-- Whether a look holds at a place, `line` being the marked line. -/
def Look.holds (line : Nat) (c : Cursor) : Look → Bool
  | .kind n k => (c.nth n).kind == k
  | .word n ws => (c.nth n).kind == .word && ws.contains (c.nth n).text
  | .adjacent => c.adjacent
  | .sameLine => c.current.span.line == c.lineBefore
  | .onLine => c.current.span.line == line
  | .capitals => !c.current.text.toList.any Text.isLowercase
  | .not a => !a.holds line c
  | .and a b => a.holds line c && b.holds line c
  | .or a b => a.holds line c || b.holds line c

namespace Node

/-- The node for the tokens between two places. Only a documentation node has documentation in its
text, and a node without tokens is a point in front of the next token. -/
def ofTokens (k : Kind) (first last : Cursor) (children : List Node) : Node :=
  let tokens := first.taken last
  let shown := tokens.filter fun t => k.isDocumentation || t.kind != .javadoc
  let span :=
    match tokens.head?, tokens.getLast? with
    | some head, some tail => head.span.cover tail.span
    | _, _ => last.current.span.point
  ⟨k, String.join (shown.map (·.text)), span, children⟩

end Node

namespace Recovery

/-- The place of the end token. -/
def toEnd (before : Option Token) : List Token → Cursor
  | t :: u :: rest =>
      if t.kind = .eof then ⟨before, t :: u :: rest⟩ else toEnd (some t) (u :: rest)
  | tokens => ⟨before, tokens⟩

/-- The place after the rest of the line: the first token on a line of its own, or the brace that
closes the enclosing block. `depth` counts the braces that are open. -/
def toLine (depth : Nat) (before : Option Token) : List Token → Cursor
  | t :: u :: rest =>
      match t.kind with
      | .eof => ⟨before, t :: u :: rest⟩
      | .rBrace =>
          if depth = 0 then ⟨before, t :: u :: rest⟩
          else toLine (depth - 1) (some t) (u :: rest)
      | .lBrace => toLine (depth + 1) (some t) (u :: rest)
      | _ =>
          if depth = 0 ∧ t.span.line > Token.lastLine before then ⟨before, t :: u :: rest⟩
          else toLine depth (some t) (u :: rest)
  | tokens => ⟨before, tokens⟩

/-- Whether a construct may start with a token. -/
def startsConstruct (keywords : List String) (t : Token) : Bool :=
  match t.kind with
  | .javadoc | .at => true
  | .word => keywords.contains t.text
  | _ => false

/-- The place after the rest of the construct: the next token that may start one, or what follows
the brace that closes the broken one. -/
def toConstruct (keywords : List String) (depth : Nat) (before : Option Token) :
    List Token → Cursor
  | t :: u :: rest =>
      match t.kind with
      | .eof => ⟨before, t :: u :: rest⟩
      | .lBrace => toConstruct keywords (depth + 1) (some t) (u :: rest)
      | .rBrace =>
          if depth = 0 then ⟨some t, u :: rest⟩
          else toConstruct keywords (depth - 1) (some t) (u :: rest)
      | _ =>
          if depth = 0 ∧ startsConstruct keywords t then ⟨before, t :: u :: rest⟩
          else toConstruct keywords depth (some t) (u :: rest)
  | tokens => ⟨before, tokens⟩

/-- The place at which reading goes on after a fault at `broken` in a construct that starts at
`first`. At least one token is given up. -/
def resume (how : Recovery) (first broken : Cursor) : Cursor :=
  let c := if broken.remaining = first.remaining then broken.advance else broken
  match how with
  | .line => toLine 0 c.before c.ahead
  | .construct keywords => toConstruct keywords 0 c.before c.ahead

end Recovery

end EntityFlow
