/-!
# Positions and spans of a source text

A position counts the bytes of UTF-8 in front of it, the line it is on and its column in
characters, lines and columns from one. A span runs from one position to another; `Span.cover` is
the span that two spans have in common as their hull.
-/

namespace EntityFlow

/-- A place between two characters of a source text. Lines and columns are counted without a bound;
they stand for numbers of 32 bits as long as a text has fewer than `2 ^ 32` lines, and fewer than
`2 ^ 32` columns on each of them. -/
structure Position where
  /-- Bytes of UTF-8 in front of this place. -/
  offset : Nat
  line : Nat
  column : Nat
deriving Repr, DecidableEq

namespace Position

/-- The place in front of the first character. -/
def origin : Position := ⟨0, 1, 1⟩

/-- The place after one more character. -/
def step (p : Position) (c : Char) : Position :=
  if c = '\n' then ⟨p.offset + c.utf8Size, p.line + 1, 1⟩
  else ⟨p.offset + c.utf8Size, p.line, p.column + 1⟩

/-- The place after a text. -/
def after (p : Position) (text : List Char) : Position := text.foldl step p

@[simp] theorem after_nil (p : Position) : p.after [] = p := rfl

@[simp] theorem after_cons (p : Position) (c : Char) (text : List Char) :
    p.after (c :: text) = (p.step c).after text := rfl

theorem after_append (p : Position) (first second : List Char) :
    p.after (first ++ second) = (p.after first).after second :=
  List.foldl_append

end Position

/-- A range of a source text: where it starts and where it ends, both also by line and column, which
are bounded as those of a `Position` are. -/
structure Span where
  start : Nat
  stop : Nat
  line : Nat
  column : Nat
  endLine : Nat
  endColumn : Nat
deriving Repr, DecidableEq

namespace Span

/-- The span between two positions. -/
def between (first last : Position) : Span :=
  ⟨first.offset, last.offset, first.line, first.column, last.line, last.column⟩

/-- The empty span at the start of a span. -/
def point (s : Span) : Span := ⟨s.start, s.start, s.line, s.column, s.line, s.column⟩

/-- The smallest span that holds both spans: it starts with the one that starts first and ends with
the one that ends last. -/
def cover (a b : Span) : Span :=
  let first := if a.start ≤ b.start then a else b
  let second := if a.start ≤ b.start then b else a
  let last := if second.stop ≥ first.stop then second else first
  ⟨first.start, last.stop, first.line, first.column, last.endLine, last.endColumn⟩

end Span

end EntityFlow
