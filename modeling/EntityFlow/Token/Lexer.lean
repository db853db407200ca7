import EntityFlow.Token.Basic
import EntityFlow.Text.Property

/-!
# From text to tokens

`Lexer.scan` says what stands at the front of a text: something to skip, a token, or the start of a
construct that never ends. `Token.lex` applies it until the text is used up. Comments and blanks
separate tokens and are skipped; a comment that opens with two stars is documentation and a token.
-/

namespace EntityFlow

/-- The ways in which a construct can lack its end. -/
inductive LexicalCause
  | blockComment
  | stringLiteral
  | stringEscape
deriving Repr, DecidableEq

/-- The wording of a cause. -/
def LexicalCause.message : LexicalCause → String
  | .blockComment => "unterminated block comment"
  | .stringLiteral => "unterminated string literal"
  | .stringEscape => "unterminated escape in string"

/-- A construct without an end, and where it starts. -/
structure LexicalFault where
  cause : LexicalCause
  position : Position
deriving Repr, DecidableEq

namespace Lexer

/-- What stands at the front of a text; the two lists of a success are the front and what follows. -/
inductive Scan
  | blank (text rest : List Char)
  | token (kind : Token.Kind) (text rest : List Char)
  | fault (cause : LexicalCause)
deriving Repr, DecidableEq

/-! ## The parts of a text that end at a mark -/

/-- The text up to and including the first end mark of a block comment, and the rest. -/
def splitComment : List Char → Option (List Char × List Char)
  | [] => none
  | '*' :: '/' :: rest => some (['*', '/'], rest)
  | c :: rest => (splitComment rest).map fun (text, more) => (c :: text, more)

/-- The text up to and including the closing quote, and the rest. A backslash and the character
after it are one unit; a line end outside such a unit ends the search. -/
def splitString (quote : Char) : List Char → Except LexicalCause (List Char × List Char)
  | [] => .error .stringLiteral
  | '\n' :: _ => .error .stringLiteral
  | ['\\'] => .error .stringEscape
  | '\\' :: c :: rest => (splitString quote rest).map fun (text, more) => ('\\' :: c :: text, more)
  | c :: rest =>
      if c = quote then .ok ([c], rest)
      else (splitString quote rest).map fun (text, more) => (c :: text, more)

/-! ## The classes of token -/

/-- The characters that may start a word. -/
def startsWord (c : Char) : Bool := Text.isAlphabetic c || c == '_'

/-- The characters that may continue a word. -/
def continuesWord (c : Char) : Bool := Text.isAlphanumeric c || c == '_'

/-- Whether a number starts here: a digit, or a minus sign in front of one. -/
def startsNumber (c : Char) (rest : List Char) : Bool :=
  c.isDigit || (c == '-' && (rest.head?.any Char.isDigit))

/-- Whether a documentation comment starts after its slash: two stars that are not at once the end
mark. -/
def startsJavadoc : List Char → Bool
  | '*' :: '*' :: '/' :: _ => false
  | '*' :: '*' :: _ => true
  | _ => false

/-- A comment that runs to its end mark; `body` is what follows the opening slash and star. -/
def scanComment (doc : Bool) (body : List Char) : Scan :=
  match splitComment body with
  | none => .fault .blockComment
  | some (text, rest) =>
      if doc then .token .javadoc ('/' :: '*' :: text) rest else .blank ('/' :: '*' :: text) rest

/-- A quoted text; `body` is what follows the opening quote. -/
def scanString (quote : Char) (body : List Char) : Scan :=
  match splitString quote body with
  | .error cause => .fault cause
  | .ok (text, rest) =>
      .token (if quote = '"' then .doubleQuoted else .singleQuoted) (quote :: text) rest

/-- A number; `body` is what follows its sign or first digit. A point belongs to it only in front
of a digit. -/
def scanNumber (c : Char) (body : List Char) : Scan :=
  let whole := body.takeWhile Char.isDigit
  match body.dropWhile Char.isDigit with
  | '.' :: d :: rest =>
      if d.isDigit then
        .token .number (c :: whole ++ '.' :: (d :: rest).takeWhile Char.isDigit)
          ((d :: rest).dropWhile Char.isDigit)
      else .token .int (c :: whole) ('.' :: d :: rest)
  | rest => .token .int (c :: whole) rest

/-- What stands at the front of the text `c :: rest`. -/
def scan (c : Char) (rest : List Char) : Scan :=
  if c = '/' ∧ rest.head? = some '/' then
    .blank (c :: rest.takeWhile (· != '\n')) (rest.dropWhile (· != '\n'))
  else if c = '/' ∧ rest.head? = some '*' then scanComment (startsJavadoc rest) rest.tail
  else if Text.isBlank c then .blank [c] rest
  else if c = '"' ∨ c = '\'' then scanString c rest
  else if startsNumber c rest then scanNumber c rest
  else if startsWord c then
    .token .word (c :: rest.takeWhile continuesWord) (rest.dropWhile continuesWord)
  else .token (Token.Kind.ofChar c) [c] rest

/-! ## A scan splits the text -/

theorem splitComment_append {cs text rest : List Char}
    (split : splitComment cs = some (text, rest)) : text ++ rest = cs := by
  fun_induction splitComment cs generalizing text rest with
  | case1 => contradiction
  | case2 tail =>
      obtain ⟨rfl, rfl⟩ : ['*', '/'] = text ∧ tail = rest := by simpa using split
      rfl
  | case3 c tail _ ih =>
      obtain ⟨⟨inner, more⟩, found, equal⟩ := Option.map_eq_some_iff.mp split
      cases equal
      simp [ih found]

theorem splitString_append {quote : Char} {cs text rest : List Char}
    (split : splitString quote cs = .ok (text, rest)) : text ++ rest = cs := by
  fun_induction splitString quote cs generalizing text rest with
  | case1 => contradiction
  | case2 => contradiction
  | case3 => contradiction
  | case4 c tail ih =>
      cases found : splitString quote tail with
      | error => simp [found, Except.map] at split
      | ok pair =>
          simp only [found, Except.map, Except.ok.injEq, Prod.mk.injEq] at split
          obtain ⟨rfl, rfl⟩ := split
          simp [ih found]
  | case5 tail =>
      obtain ⟨rfl, rfl⟩ : [quote] = text ∧ tail = rest := by simpa using split
      rfl
  | case6 c tail _ _ _ _ ih =>
      cases found : splitString quote tail with
      | error => simp [found, Except.map] at split
      | ok pair =>
          simp only [found, Except.map, Except.ok.injEq, Prod.mk.injEq] at split
          obtain ⟨rfl, rfl⟩ := split
          simp [ih found]

/-- A scan that succeeds splits the text into a front that is not empty and the rest. -/
def Scan.Splits (cs : List Char) : Scan → Prop
  | .blank text rest => text ++ rest = cs ∧ text ≠ []
  | .token _ text rest => text ++ rest = cs ∧ text ≠ []
  | .fault _ => True

theorem scanComment_splits (doc : Bool) (body : List Char) :
    (scanComment doc body).Splits ('/' :: '*' :: body) := by
  unfold scanComment
  cases found : splitComment body with
  | none => trivial
  | some pair =>
      have whole := splitComment_append found
      cases doc <;> simp [Scan.Splits, whole]

theorem scanString_splits (quote : Char) (body : List Char) :
    (scanString quote body).Splits (quote :: body) := by
  unfold scanString
  cases found : splitString quote body with
  | error => trivial
  | ok pair =>
      have whole := splitString_append found
      simp [Scan.Splits, whole]

theorem scanNumber_splits (c : Char) (body : List Char) :
    (scanNumber c body).Splits (c :: body) := by
  have whole : body.takeWhile Char.isDigit ++ body.dropWhile Char.isDigit = body :=
    List.takeWhile_append_dropWhile
  unfold scanNumber
  split
  · rename_i d rest split
    rw [split] at whole
    split
    · simp only [Scan.Splits, List.cons_append, List.append_assoc, ne_eq, reduceCtorEq,
        not_false_eq_true, and_true, List.takeWhile_append_dropWhile]
      simp [whole]
    · simp [Scan.Splits, whole]
  · simp [Scan.Splits, whole]

theorem scan_splits (c : Char) (rest : List Char) : (scan c rest).Splits (c :: rest) := by
  unfold scan
  split
  · simp [Scan.Splits, List.takeWhile_append_dropWhile]
  · split
    · rename_i opened
      obtain ⟨rfl, star⟩ := opened
      cases rest with
      | nil => simp at star
      | cons d tail =>
          simp only [List.head?_cons, Option.some.injEq] at star
          subst star
          exact scanComment_splits _ tail
    · split
      · simp [Scan.Splits]
      · split
        · exact scanString_splits c rest
        · split
          · exact scanNumber_splits c rest
          · split
            · simp [Scan.Splits, List.takeWhile_append_dropWhile]
            · simp [Scan.Splits]

theorem rest_length_lt {cs text rest : List Char} (whole : text ++ rest = cs)
    (nonempty : text ≠ []) : rest.length < cs.length := by
  have := List.length_pos_iff.mpr nonempty
  rw [← whole, List.length_append]
  omega

/-! ## Whole texts -/

/-- The tokens of a text that stands at a position, the end token included. -/
def tokens (p : Position) (cs : List Char) : Except LexicalFault (List Token) :=
  match cs with
  | [] => .ok [⟨.eof, "", Span.between p p⟩]
  | c :: rest =>
      match _front : scan c rest with
      | .blank text more => tokens (p.after text) more
      | .token kind text more =>
          (tokens (p.after text) more).map
            (⟨kind, String.ofList text, Span.between p (p.after text)⟩ :: ·)
      | .fault cause => .error ⟨cause, p⟩
termination_by cs.length
decreasing_by
  all_goals
    have splits := scan_splits c rest
    rw [_front] at splits
    exact rest_length_lt splits.1 splits.2

end Lexer

/-- The tokens of a source text. The last one is the end token, and the only one of its kind. -/
def Token.lex (source : String) : Except LexicalFault (List Token) :=
  Lexer.tokens Position.origin source.toList

end EntityFlow
