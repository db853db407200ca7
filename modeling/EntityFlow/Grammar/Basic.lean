import EntityFlow.Token.Basic
import EntityFlow.Tree.Basic

/-!
# Grammars

A grammar is a value: it says which tokens a construct is made of, which nodes they form and where
a broken construct is given up. Both languages are such values, so a statement about every grammar
is proved once, by induction on `Grammar`. Decisions are made by looking at the tokens ahead and at
the line layout (`Look`); nothing is ever undone. The four constructs that contain themselves are
called by name (`Rule`).
-/

namespace EntityFlow

/-- A decision by the tokens ahead; `n` counts from the current token, which is number zero. -/
inductive Look
  /-- The token `n` ahead is of a kind. -/
  | kind (n : Nat) (k : Token.Kind)
  /-- The token `n` ahead is one of the given words. -/
  | word (n : Nat) (ws : List String)
  /-- The current token starts where the token before it ends. -/
  | adjacent
  /-- The current token is on the line on which the token before it ends. -/
  | sameLine
  /-- The current token is on the marked line. -/
  | onLine
  /-- The current token has no small letter. -/
  | capitals
  | not (a : Look)
  | and (a b : Look)
  | or (a b : Look)
deriving Repr, DecidableEq

/-- What was expected where a construct broke. -/
inductive Expectation
  | symbol (k : Token.Kind)
  | word (w : String)
  | identifier
  | optionName
  | value
  | string
  | key
  | validationArgument
  | declaration
  | methodEvent
  | channelEnd
  | channelName
  | flowItem
  | systemItem
  | ruleItem
  | outcome
deriving Repr, DecidableEq

/-- A break of the grammar: what was expected and the token that stood there instead. -/
structure Fault where
  expected : Expectation
  found : Token
deriving Repr, DecidableEq

namespace Fault

/-- How a message calls the token that was found. -/
def foundText (f : Fault) : String :=
  if f.found.kind = .eof then "end of input" else "'" ++ f.found.text ++ "'"

/-- A message for what was expected in general, where an unexpected word has a message of its own. -/
def choiceMessage (f : Fault) (what : String) : String :=
  if f.found.kind = .word then "unexpected " ++ f.foundText ++ ", expected " ++ what
  else "expected " ++ what ++ ", got " ++ f.foundText

/-- The wording of a fault. -/
def message (f : Fault) : String :=
  match f.expected with
  | .symbol k => "expected '" ++ k.symbol ++ "', got " ++ f.foundText
  | .word w => "expected '" ++ w ++ "', got " ++ f.foundText
  | .identifier => "expected identifier, got " ++ f.foundText
  | .optionName => "expected option name, got " ++ f.foundText
  | .value => "expected a value, got " ++ f.foundText
  | .string => "expected a string, got " ++ f.foundText
  | .key => "expected a key, got " ++ f.foundText
  | .validationArgument => "unterminated validation argument, got " ++ f.foundText
  | .declaration => f.choiceMessage "a declaration"
  | .methodEvent => "expected at least one event after 'withEvents'"
  | .channelEnd => "expected ')' after event channel, got " ++ f.foundText
  | .channelName => "expected a channel name"
  | .flowItem => f.choiceMessage "systems, start, when or end"
  | .systemItem => "expected zdl, service or events, got " ++ f.foundText
  | .ruleItem => "expected command, event, policy or if, got " ++ f.foundText
  | .outcome => "expected completed, suspended or cancelled, got " ++ f.foundText

/-- The line on which a fault is reported. -/
def line (f : Fault) : Nat := f.found.span.line

/-- The column at which a fault is reported. -/
def column (f : Fault) : Nat := f.found.span.column

end Fault

/-- How much of a broken construct is given up. -/
inductive Recovery
  /-- The rest of its line or the rest of the enclosing block, nested blocks skipped whole. -/
  | line
  /-- Everything up to the next token that may start a construct: documentation, an option or one
  of the given words. -/
  | construct (keywords : List String)
deriving Repr, DecidableEq

/-- The constructs that contain themselves. -/
inductive Rule
  | value
  | argument
  | field
  | ruleItem
deriving Repr, DecidableEq

/-- A grammar. It takes tokens and yields nodes. -/
inductive Grammar
  /-- Nothing. -/
  | done
  /-- The current token, whatever it is. -/
  | take
  /-- A fault at the current token. -/
  | fail (expected : Expectation)
  /-- One after the other. -/
  | seq (first second : Grammar)
  /-- A choice by looking ahead. -/
  | choose (look : Look) (yes no : Grammar)
  /-- Repetition as long as a look holds. -/
  | many (look : Look) (item : Grammar)
  /-- A node for all that `lead` and `body` take, with the nodes they yield as its parts. Its kind
  is that of the first case whose look holds after `lead`, or `otherwise`; without either the nodes
  stay as they are. -/
  | node (lead : Grammar) (cases : List (Look × Node.Kind)) (otherwise : Option Node.Kind)
      (body : Grammar)
  /-- Only the last of the nodes. -/
  | last (g : Grammar)
  /-- A fault if there is no node. -/
  | atLeastOne (expected : Expectation) (g : Grammar)
  /-- Marks the line on which the token before ends. -/
  | markLine (g : Grammar)
  /-- A broken construct becomes an error node. -/
  | recovering (how : Recovery) (g : Grammar)
  /-- A construct that contains itself. -/
  | call (r : Rule)
deriving Repr, DecidableEq

namespace Grammar

/-! ## Derived forms -/

/-- One after the other. -/
def list : List Grammar → Grammar
  | [] => done
  | [g] => g
  | g :: rest => seq g (list rest)

/-- A grammar that is used only where a look holds. -/
def opt (look : Look) (g : Grammar) : Grammar := choose look g done

/-- A fault unless a look holds. -/
def guarded (look : Look) (expected : Expectation) (g : Grammar) : Grammar :=
  choose look g (fail expected)

/-- A token of a kind. -/
def symbol (k : Token.Kind) : Grammar := guarded (.kind 0 k) (.symbol k) take

/-- A given word. -/
def word (w : String) : Grammar := guarded (.word 0 [w]) (.word w) take

/-- A node of a fixed kind. -/
def tree (k : Node.Kind) (body : Grammar) : Grammar := node done [] (some k) body

/-- A node for the current token alone. -/
def leaf (k : Node.Kind) : Grammar := tree k take

/-- One of the ways in which a construct may go on. -/
structure Alternative where
  look : Look
  kind : Node.Kind
  body : Grammar

/-- A node whose kind and body are told by what stands after its lead. -/
def alternatives (lead : Grammar) (expected : Expectation) (ways : List Alternative) : Grammar :=
  node lead (ways.map fun way => (way.look, way.kind)) none
    (ways.foldr (fun way rest => choose way.look way.body rest) (fail expected))

/-- A block in braces. A broken item becomes an error node and the block goes on after it. -/
def block (item : Grammar) : Grammar :=
  list [symbol .lBrace,
    many (.and (.not (.kind 0 .rBrace)) (.not (.kind 0 .eof))) (recovering .line item),
    symbol .rBrace]

/-- Items between commas, at least one. -/
def commaSeparated (item : Grammar) : Grammar :=
  seq item (many (.kind 0 .comma) (seq take item))

/-- Items between commas up to a closing token; the last one may be followed by a comma. -/
def commaTerminated (close : Token.Kind) (item : Grammar) : Grammar :=
  opt (.not (.kind 0 close))
    (list [item,
      many (.and (.kind 0 .comma) (.not (.kind 1 close))) (seq take item),
      opt (.kind 0 .comma) take])

end Grammar

end EntityFlow
