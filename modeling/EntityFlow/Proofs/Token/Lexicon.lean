import EntityFlow.Proofs.Token.Order

/-!
# The lexical grammar

What the lexer takes for a token, said without the lexer: `Lexer.Matches` gives for each kind the
texts of its tokens and what must not follow them, `Lexer.Skipped` what separates tokens, and
`Lexer.Unended` the texts that start something and lack its end. What matches in front of one text
does so in front of every text that continues it no further (`Lexer.Matches.milder`): the text may
be cut off, or go on with a blank.
-/

namespace EntityFlow

/-- The quote character of the kinds of quoted texts. -/
def Token.Kind.quote? : Token.Kind → Option Char
  | .singleQuoted => some '\''
  | .doubleQuoted => some '"'
  | _ => none

namespace Lexer

/-! ## The grammar -/

/-- A comment that is no token, in front of what follows it: a line comment, which ends in front of
a line end or with the source, or a block comment, which ends with its first end mark and does not
open as documentation. -/
inductive Comment : List Char → List Char → Prop
  | line {body rest : List Char} (one : '\n' ∉ body) (stops : ∀ c ∈ rest.head?, c = '\n') :
      Comment ('/' :: '/' :: body) rest
  | block {body rest : List Char} (plain : body.head? ≠ some '*')
      (first : ¬ ['*', '/'] <:+: body ++ ['*']) :
      Comment ('/' :: '*' :: (body ++ ['*', '/'])) rest

/-- What separates tokens, in front of what follows it. -/
inductive Skipped : List Char → List Char → Prop
  | blank {c : Char} {rest : List Char} (blank : Text.isBlank c = true) : Skipped [c] rest
  | comment {text rest : List Char} (comment : Comment text rest) : Skipped text rest

/-- The inside of a quoted text: pairs of a backslash and any character, and characters of their own
that are neither the quote nor a line end. -/
inductive Enclosed (quote : Char) : List Char → Prop
  | nil : Enclosed quote []
  | plain {c : Char} {tail : List Char} (proper : c ≠ '\\') (other : c ≠ quote) (line : c ≠ '\n')
      (later : Enclosed quote tail) : Enclosed quote (c :: tail)
  | pair {c : Char} {tail : List Char} (later : Enclosed quote tail) :
      Enclosed quote ('\\' :: c :: tail)

/-- Digits, with or without a minus sign in front of them. -/
structure Whole (c : Char) (tail : List Char) : Prop where
  lead : c.isDigit = true ∨ c = '-' ∧ tail ≠ []
  digits : ∀ d ∈ tail, d.isDigit = true

/-- A character that is alone: no blank, and no comment and no token of several characters starts
with it. -/
structure Alone (c : Char) (rest : List Char) : Prop where
  visible : Text.isBlank c = false
  letter : startsWord c = false
  digit : c.isDigit = false
  minus : c = '-' → ∀ d ∈ rest.head?, d.isDigit = false
  quote : c ≠ '"' ∧ c ≠ '\''
  slash : c = '/' → ∀ d ∈ rest.head?, d ≠ '/' ∧ d ≠ '*'

/-- The texts of each kind of token, in front of what follows them. -/
inductive Matches : Token.Kind → List Char → List Char → Prop
  /-- The start of a word and all that continues it. -/
  | word {c : Char} {tail rest : List Char} (starts : startsWord c = true)
      (continued : ∀ d ∈ tail, continuesWord d = true)
      (stops : ∀ d ∈ rest.head?, continuesWord d = false) : Matches .word (c :: tail) rest
  /-- All digits, and neither a further one nor a fraction behind them. -/
  | int {c : Char} {tail rest : List Char} (whole : Whole c tail)
      (stops : ∀ d ∈ rest.head?, d.isDigit = false)
      (point : ∀ d more, rest = '.' :: d :: more → d.isDigit = false) :
      Matches .int (c :: tail) rest
  /-- All digits in front of a point and behind it, at least one on each side. -/
  | number {c : Char} {tail fraction rest : List Char} (whole : Whole c tail)
      (some : fraction ≠ []) (digits : ∀ d ∈ fraction, d.isDigit = true)
      (stops : ∀ d ∈ rest.head?, d.isDigit = false) :
      Matches .number (c :: (tail ++ '.' :: fraction)) rest
  /-- A quote, an inside without an end of its own, and the same quote. -/
  | quoted {kind : Token.Kind} {quote : Char} {inside rest : List Char}
      (quoted : kind.quote? = some quote) (enclosed : Enclosed quote inside) :
      Matches kind (quote :: (inside ++ [quote])) rest
  /-- A block comment up to its first end mark, whose body starts with a star. -/
  | javadoc {body rest : List Char} (documents : body.head? = some '*')
      (first : ¬ ['*', '/'] <:+: body ++ ['*']) :
      Matches .javadoc ('/' :: '*' :: (body ++ ['*', '/'])) rest
  /-- Punctuation is its character. -/
  | symbol {kind : Token.Kind} {c : Char} {rest : List Char}
      (symbol : kind.symbol = String.singleton c) : Matches kind [c] rest
  /-- A character that is alone and no punctuation. -/
  | unknown {c : Char} {rest : List Char} (alone : Alone c rest)
      (other : ∀ kind : Token.Kind, kind.symbol ≠ String.singleton c) : Matches .unknown [c] rest
  /-- Nothing, at the end. -/
  | eof : Matches .eof [] []

/-- The texts that start a comment or a quoted text which has no end. -/
inductive Unended : LexicalCause → List Char → Prop
  /-- No end mark follows the opening mark. -/
  | comment {body : List Char} (none : ¬ ['*', '/'] <:+: body) :
      Unended .blockComment ('/' :: '*' :: body)
  /-- A line end comes first. -/
  | line {quote : Char} {inside rest : List Char} (isQuote : quote = '"' ∨ quote = '\'')
      (enclosed : Enclosed quote inside) :
      Unended .stringLiteral (quote :: (inside ++ '\n' :: rest))
  /-- The end of the source comes first. -/
  | stop {quote : Char} {inside : List Char} (isQuote : quote = '"' ∨ quote = '\'')
      (enclosed : Enclosed quote inside) : Unended .stringLiteral (quote :: inside)
  /-- The end of the source comes first, behind a backslash without a partner. -/
  | escape {quote : Char} {inside : List Char} (isQuote : quote = '"' ∨ quote = '\'')
      (enclosed : Enclosed quote inside) : Unended .stringEscape (quote :: (inside ++ ['\\']))

/-! ## Classes of characters -/

/-- No blank beyond ASCII is a letter. -/
theorem isAlphabetic_whiteSpace : ∀ p ∈ Text.Table.whiteSpace,
    ∀ code ∈ List.range' p.first (p.last + 1 - p.first),
      (Text.Table.alphabetic.any (·.contains code)) = false := by
  decide +kernel

/-- No letter of ASCII is a blank or a digit. -/
theorem startsWord_ascii : ∀ code ∈ List.range 128, startsWord (Char.ofNat code) = true →
    Text.isBlank (Char.ofNat code) = false ∧ (Char.ofNat code).isDigit = false := by
  decide +kernel

theorem isBlank_of_startsWord {c : Char} (starts : startsWord c = true) :
    Text.isBlank c = false := by
  cases ascii : Text.isAscii c with
  | true =>
      have code := startsWord_ascii c.toNat (List.mem_range.mpr (of_decide_eq_true ascii))
      rw [Char.ofNat_toNat] at code
      exact (code starts).1
  | false =>
      have notAscii : ¬Text.isAscii c = true := by rw [ascii]; exact Bool.false_ne_true
      refine Bool.eq_false_iff.mpr fun blank => ?_
      rw [Text.isBlank, if_neg notAscii] at blank
      obtain ⟨p, member, inside⟩ := List.any_eq_true.mp blank
      simp only [Text.Progression.contains, Bool.and_eq_true, decide_eq_true_eq] at inside
      have noLetter := isAlphabetic_whiteSpace p member c.toNat
        (List.mem_range'_1.mpr ⟨inside.1.1, by omega⟩)
      rcases Bool.or_eq_true_iff.mp starts with letter | line
      · rw [Text.isAlphabetic, if_neg notAscii, Text.Table.has, noLetter] at letter
        cases letter
      · rw [beq_iff_eq.mp line] at ascii
        exact absurd ascii (by decide)

theorem ne_of_startsWord {c d : Char} (starts : startsWord c = true)
    (other : startsWord d = false) : c ≠ d := by
  rintro rfl
  rw [starts] at other
  cases other

theorem isDigit_of_startsWord {c : Char} (starts : startsWord c = true) : c.isDigit = false := by
  refine Bool.eq_false_iff.mpr fun digit => ?_
  have bounds : 48 ≤ c.toNat ∧ c.toNat ≤ 57 := by
    simpa [Char.isDigit, UInt32.le_iff_toNat_le] using digit
  have code := startsWord_ascii c.toNat (List.mem_range.mpr (by omega))
  rw [Char.ofNat_toNat] at code
  rw [(code starts).2] at digit
  cases digit

theorem continuesWord_of_startsWord {c : Char} (starts : startsWord c = true) :
    continuesWord c = true := by
  unfold startsWord at starts
  unfold continuesWord Text.isAlphanumeric
  rcases Bool.or_eq_true_iff.mp starts with letter | line
  · rw [letter, Bool.true_or, Bool.true_or]
  · rw [line, Bool.or_true]

theorem isBlank_of_isDigit {c : Char} (digit : c.isDigit = true) : Text.isBlank c = false := by
  have space : c ≠ ' ' := ne_of_apply_ne Char.isDigit (by rw [digit]; decide)
  have bounds : 48 ≤ c.toNat ∧ c.toNat ≤ 57 := by
    simpa [Char.isDigit, UInt32.le_iff_toNat_le] using digit
  have ascii : Text.isAscii c = true := decide_eq_true (by omega)
  unfold Text.isBlank
  rw [if_pos ascii]
  simp only [beq_eq_false_iff_ne.mpr space, Bool.or_false, Bool.and_eq_false_iff,
    decide_eq_false_iff_not]
  omega

theorem symbol_ofChar (c : Char) :
    Token.Kind.ofChar c = .unknown ∨ (Token.Kind.ofChar c).symbol = String.singleton c := by
  unfold Token.Kind.ofChar
  split
  all_goals first | exact Or.inr rfl | exact Or.inl rfl

/-- Punctuation is one character that is nothing else. -/
theorem exists_punctuation {k : Token.Kind} (known : k.symbol ≠ "") :
    ∃ c, k.symbol.toList = [c] ∧ Token.Kind.ofChar c = k ∧ c ≠ '/' ∧ Text.isBlank c = false ∧
      c ≠ '"' ∧ c ≠ '\'' ∧ c.isDigit = false ∧ c ≠ '-' ∧ startsWord c = false ∧
      continuesWord c = false := by
  cases k with
  | word | singleQuoted | doubleQuoted | int | number | javadoc | unknown | eof =>
      exact absurd rfl known
  | _ => exact ⟨_, rfl, by decide⟩

theorem ofChar_of_symbol {kind : Token.Kind} {c : Char}
    (symbol : kind.symbol = String.singleton c) : Token.Kind.ofChar c = kind := by
  obtain ⟨d, written, isKind, -⟩ := exists_punctuation (k := kind) (by simp [symbol])
  rw [symbol, String.toList_singleton] at written
  cases written
  exact isKind

theorem alone_of_symbol {kind : Token.Kind} {c : Char} (symbol : kind.symbol = String.singleton c)
    (rest : List Char) : Alone c rest := by
  obtain ⟨d, written, -, slash, visible, double, single, digit, minus, letter, -⟩ :=
    exists_punctuation (k := kind) (by simp [symbol])
  rw [symbol, String.toList_singleton] at written
  cases written
  exact ⟨visible, letter, digit, fun isMinus => absurd isMinus minus, ⟨double, single⟩,
    fun isSlash => absurd isSlash slash⟩

theorem startsNumber_eq_false_iff {c : Char} {rest : List Char} :
    startsNumber c rest = false ↔
      c.isDigit = false ∧ (c = '-' → ∀ d ∈ rest.head?, d.isDigit = false) := by
  cases rest <;> simp [startsNumber]

/-! ## What may follow -/

section Following

variable {kind : Token.Kind} {text rest rest' : List Char}

theorem Skipped.of_head (skipped : Skipped text rest)
    (heads : ∀ d ∈ rest'.head?, d ∈ rest.head? ∨ d = '\n') : Skipped text rest' := by
  cases skipped with
  | blank blank => exact .blank blank
  | comment comment =>
      cases comment with
      | line one stops =>
          exact .comment (.line one fun d head => (heads d head).elim (stops d) id)
      | block plain first => exact .comment (.block plain first)

/-- What is skipped in front of a text is skipped in front of its beginning, too. -/
theorem Skipped.of_front (skipped : Skipped text rest) (front : rest' <+: rest) :
    Skipped text rest' := by
  obtain ⟨back, rfl⟩ := front
  apply skipped.of_head
  intro d head
  obtain ⟨tail, rfl⟩ := List.head?_eq_some_iff.mp head
  exact .inl head

/-- What is skipped in front of a text is skipped in front of it and a line end, too. -/
theorem Skipped.newline (skipped : Skipped text rest) (more : List Char) :
    Skipped text (rest ++ '\n' :: more) := by
  apply skipped.of_head
  cases rest with
  | nil => exact fun d head => .inr (Option.some.inj head).symm
  | cons => exact fun d head => .inl head

/-- A text that continues nothing which the other does not continue: it starts in the same way, or
with a blank. -/
structure Milder (rest rest' : List Char) : Prop where
  head : ∀ d ∈ rest'.head?, d ∈ rest.head? ∨ d = ' ' ∨ d = '\n'
  point : ∀ d more, rest' = '.' :: d :: more → (∃ tail, rest = '.' :: d :: tail) ∨ d = '\n'

namespace Milder

theorem of_front (front : rest' <+: rest) : Milder rest rest' := by
  obtain ⟨back, rfl⟩ := front
  constructor
  · intro d head
    obtain ⟨tail, rfl⟩ := List.head?_eq_some_iff.mp head
    exact .inl head
  · rintro d more rfl
    exact .inl ⟨more ++ back, rfl⟩

theorem space (rest more : List Char) : Milder rest (' ' :: more) := by
  constructor
  · rintro d ⟨⟩
    exact .inr (.inl rfl)
  · nofun

theorem newline (rest more : List Char) : Milder rest (rest ++ '\n' :: more) := by
  match rest with
  | [] => exact ⟨fun d head => .inr (.inr (Option.some.inj head).symm), nofun⟩
  | [e] =>
      refine ⟨fun d head => .inl head, fun d tail equal => .inr ?_⟩
      exact (List.cons.inj (List.cons.inj equal).2).1.symm
  | e :: d :: rest =>
      refine ⟨fun d head => .inl head, fun f tail equal => .inl ⟨rest, ?_⟩⟩
      simp only [List.cons_append, List.cons.injEq] at equal
      rw [equal.1, equal.2.1]

theorem stops (milder : Milder rest rest') {p : Char → Bool} (space : p ' ' = false)
    (line : p '\n' = false) (stops : ∀ d ∈ rest.head?, p d = false) :
    ∀ d ∈ rest'.head?, p d = false := by
  intro d head
  rcases milder.head d head with same | rfl | rfl
  · exact stops d same
  · exact space
  · exact line

end Milder

theorem Alone.milder {c : Char} (alone : Alone c rest) (milder : Milder rest rest') :
    Alone c rest' := by
  refine ⟨alone.visible, alone.letter, alone.digit, fun minus => ?_, alone.quote, fun slash => ?_⟩
  · exact milder.stops rfl rfl (alone.minus minus)
  · intro d head
    rcases milder.head d head with same | rfl | rfl
    · exact alone.slash slash d same
    · decide
    · decide

/-- What matches in front of one text does so in front of a milder one. -/
theorem Matches.milder (found : Matches kind text rest) (proper : kind ≠ .eof)
    (milder : Milder rest rest') : Matches kind text rest' := by
  cases found with
  | word starts continued stops =>
      exact .word starts continued (milder.stops (by decide) (by decide) stops)
  | int whole stops point =>
      refine .int whole (milder.stops rfl rfl stops) fun d more equal => ?_
      rcases milder.point d more equal with ⟨tail, same⟩ | rfl
      · exact point d tail same
      · rfl
  | number whole some digits stops => exact .number whole some digits (milder.stops rfl rfl stops)
  | quoted quoted enclosed => exact .quoted quoted enclosed
  | javadoc documents first => exact .javadoc documents first
  | symbol symbol => exact .symbol symbol
  | unknown alone other => exact .unknown (alone.milder milder) other
  | eof => exact absurd rfl proper

end Following

end Lexer

end EntityFlow
