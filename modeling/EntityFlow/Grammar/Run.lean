import EntityFlow.Grammar.Cursor

/-!
# Reading by a grammar

`Grammar.run` reads tokens by a grammar. A fault ends the constructs around it up to the nearest
one that recovers; that one records the fault and yields an error node. When as many faults are
recorded as are wanted, the next recovery gives up everything that is left.

Constructs that contain themselves are read by `Rule.run`, which is recursive in the number of
tokens ahead: a rule is entered again only after a token was taken.
-/

namespace EntityFlow

/-- A place and the faults recorded on the way to it. -/
structure Reading where
  cursor : Cursor
  faults : List Fault
deriving Repr, DecidableEq

/-- What reading comes to: nodes, or a fault that no construct has recovered from yet. -/
inductive Outcome
  | nodes (ns : List Node) (r : Reading)
  | broken (fault : Fault) (r : Reading)
deriving Repr

/-- A way of reading. -/
abbrev Reader := Reading → Outcome

namespace Outcome

/-- The nodes read; none after a fault. -/
def yield : Outcome → List Node
  | .nodes ns _ => ns
  | .broken _ _ => []

/-- The place and the recorded faults. -/
def reading : Outcome → Reading
  | .nodes _ r => r
  | .broken _ r => r

/-- Goes on after a success. -/
def bind (o : Outcome) (next : List Node → Reader) : Outcome :=
  match o with
  | .nodes ns r => next ns r
  | .broken fault r => .broken fault r

end Outcome

namespace Reading

/-- The number of tokens ahead. -/
def remaining (r : Reading) : Nat := r.cursor.remaining

/-- A fault at the current token. -/
def fault (r : Reading) (expected : Expectation) : Fault := ⟨expected, r.cursor.current⟩

/-- The reading with one more fault, if fewer than `limit` are recorded. -/
def record (limit : Nat) (r : Reading) (fault : Fault) : Reading :=
  if r.faults.length < limit then ⟨r.cursor, r.faults ++ [fault]⟩ else r

/-- Records a fault, gives up the rest of the construct that starts at `first`, and yields the
error node for it. -/
def recover (limit : Nat) (how : Recovery) (first : Cursor) (fault : Fault) (r : Reading) :
    Outcome :=
  let noted := r.record limit fault
  let next :=
    if noted.faults.length < limit then how.resume first noted.cursor
    else Recovery.toEnd noted.cursor.before noted.cursor.ahead
  .nodes [Node.ofTokens .error first next []] ⟨next, noted.faults⟩

/-- Repeats a reader as long as a look holds, at most `n` times. -/
def repeatWhile (holds : Cursor → Bool) (item : Reader) : Nat → Reader
  | 0, r => .nodes [] r
  | n + 1, r =>
      if holds r.cursor then
        (item r).bind fun ns next =>
          (repeatWhile holds item n next).bind fun more last => .nodes (ns ++ more) last
      else .nodes [] r

end Reading

/-- The kind of the first case whose look holds. -/
def Grammar.pick (line : Nat) (c : Cursor) (otherwise : Option Node.Kind) :
    List (Look × Node.Kind) → Option Node.Kind
  | [] => otherwise
  | (look, k) :: rest => if look.holds line c then some k else Grammar.pick line c otherwise rest

/-- The nodes read between two places, as the parts of a node of the given kind if there is one. -/
def Node.wrap (k : Option Kind) (first last : Cursor) (parts : List Node) : List Node :=
  match k with
  | some k => [Node.ofTokens k first last parts]
  | none => parts

/-- Reads by a grammar. `call` reads the constructs that contain themselves, `limit` is the number
of faults wanted and `line` the marked line. -/
def Grammar.run (limit : Nat) (call : Rule → Reader) : Grammar → (line : Nat) → Reader
  | .done, _, r => .nodes [] r
  | .take, _, r => .nodes [] ⟨r.cursor.advance, r.faults⟩
  | .fail expected, _, r => .broken (r.fault expected) r
  | .seq first second, line, r =>
      (first.run limit call line r).bind fun ns next =>
        (second.run limit call line next).bind fun more last => .nodes (ns ++ more) last
  | .choose look yes no, line, r =>
      if look.holds line r.cursor then yes.run limit call line r else no.run limit call line r
  | .many look item, line, r =>
      Reading.repeatWhile (look.holds line ·) (item.run limit call line) r.remaining r
  | .node lead cases otherwise body, line, r =>
      (lead.run limit call line r).bind fun ns next =>
        (body.run limit call line next).bind fun more last =>
          .nodes (Node.wrap (Grammar.pick line next.cursor otherwise cases) r.cursor last.cursor
            (ns ++ more)) last
  | .last g, line, r =>
      (g.run limit call line r).bind fun ns next => .nodes ns.getLast?.toList next
  | .atLeastOne expected g, line, r =>
      (g.run limit call line r).bind fun ns next =>
        if ns.isEmpty then .broken (next.fault expected) next else .nodes ns next
  | .markLine g, _, r => g.run limit call r.cursor.lineBefore r
  | .recovering how g, line, r =>
      match g.run limit call line r with
      | .nodes ns next => .nodes ns next
      | .broken fault next => next.recover limit how r.cursor fault
  | .call rule, _, r => call rule r

/-- Reads a construct that contains itself; `rules` are the grammars of these constructs. -/
def Rule.run (rules : Rule → Grammar) (limit : Nat) (rule : Rule) (r : Reading) : Outcome :=
  (rules rule).run limit
    (fun inner next =>
      if next.remaining < r.remaining then Rule.run rules limit inner next
      else .broken (next.fault .value) next)
    0 r
termination_by r.remaining

end EntityFlow
