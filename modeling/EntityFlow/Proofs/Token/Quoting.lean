import Mathlib.Algebra.Ring.Parity
import Mathlib.Data.List.DropRight
import Mathlib.Data.List.TFAE
import EntityFlow.Proofs.Token.Literals
import EntityFlow.Proofs.Token.Matching
import EntityFlow.Value.Literal

/-!
# Quoting and unquoting

A text between quotes, with a backslash in front of every quote inside, stands for the text, and
every quoted token is the quotation of the text that it stands for (`Token.lex_quotation`).

The lexer takes a backslash and any character behind it as a pair; the text that a token stands for
only loses the backslashes in front of quotes. The two agree as far as the runs of backslashes let
them: the quotation of a text is one token if and only if they pair up (`Text.Paired`).
-/

namespace EntityFlow

namespace Text

/-- The text between quotes, with a backslash in front of every quote inside. -/
def quotation (quote : Char) (s : String) : String := String.ofList (quoted quote s.toList)

/-- How many backslashes stand at the end of a text, without another character between them. -/
def backslashes (cs : List Char) : Nat := (cs.rtakeWhile (· == '\\')).length

/-- The runs of backslashes of a text, behind a front: even in front of a quote and at the end, odd
in front of a line end. -/
structure Paired (quote : Char) (front cs : List Char) : Prop where
  quotes : ∀ before after, cs = before ++ quote :: after → Even (backslashes (front ++ before))
  stop : Even (backslashes (front ++ cs))
  lines : ∀ before after, cs = before ++ '\n' :: after → Odd (backslashes (front ++ before))

/-! ## Runs of backslashes -/

section Runs

variable {quote c : Char} {front cs : List Char}

theorem backslashes_backslash (cs : List Char) :
    backslashes (cs ++ ['\\']) = backslashes cs + 1 := by
  rw [backslashes, List.rtakeWhile_concat_pos _ _ _ rfl, List.length_append]
  rfl

theorem backslashes_concat (cs : List Char) (proper : c ≠ '\\') : backslashes (cs ++ [c]) = 0 := by
  rw [backslashes, List.rtakeWhile_concat_neg _ _ _ (by simpa using proper)]
  rfl

/-- What holds of every text in front of a certain character, at the start and behind it. -/
theorem forall_before_cons {P : List Char → Prop} {d : Char} :
    (∀ before after, c :: cs = before ++ d :: after → P before) ↔
      (c = d → P []) ∧ ∀ before after, cs = before ++ d :: after → P (c :: before) := by
  constructor
  · intro all
    refine ⟨?_, ?_⟩
    · rintro rfl
      exact all [] cs rfl
    · rintro before after rfl
      exact all (c :: before) after rfl
  · rintro ⟨first, later⟩ before after split
    cases before with
    | nil => exact first (List.cons.inj split).1
    | cons e before =>
        obtain ⟨rfl, rest⟩ := List.cons.inj split
        exact later before after rest

theorem paired_nil : Paired quote front [] ↔ Even (backslashes front) := by
  constructor
  · intro paired
    have stop := paired.stop
    rwa [List.append_nil] at stop
  · intro even
    refine ⟨fun before after split => ?_, by rwa [List.append_nil], fun before after split => ?_⟩
    · simp at split
    · simp at split

theorem paired_cons : Paired quote front (c :: cs) ↔
    (c = quote → Even (backslashes front)) ∧ (c = '\n' → Odd (backslashes front)) ∧
      Paired quote (front ++ [c]) cs := by
  have step (before : List Char) : front ++ [c] ++ before = front ++ c :: before := by simp
  constructor
  · intro paired
    obtain ⟨isQuote, quotes⟩ := forall_before_cons.mp paired.quotes
    obtain ⟨isLine, lines⟩ := forall_before_cons.mp paired.lines
    rw [List.append_nil] at isQuote isLine
    refine ⟨isQuote, isLine, ?_, ?_, ?_⟩
    all_goals simp only [step]
    · exact quotes
    · exact paired.stop
    · exact lines
  · rintro ⟨isQuote, isLine, quotes, stop, lines⟩
    simp only [step] at quotes stop lines
    refine ⟨forall_before_cons.mpr ⟨?_, quotes⟩, stop, forall_before_cons.mpr ⟨?_, lines⟩⟩
    · rwa [List.append_nil]
    · rwa [List.append_nil]

end Runs

end Text

namespace Lexer

/-! ## The inside of a quotation -/

section Inside

variable {quote c : Char} {inside tail : List Char}

theorem enclosed_cons (proper : c ≠ '\\') :
    Enclosed quote (c :: tail) ↔ c ≠ quote ∧ c ≠ '\n' ∧ Enclosed quote tail := by
  constructor
  · intro enclosed
    cases enclosed with
    | plain _ other line later => exact ⟨other, line, later⟩
    | pair later => exact absurd rfl proper
  · rintro ⟨other, line, later⟩
    exact .plain proper other line later

theorem enclosed_pair : Enclosed quote ('\\' :: c :: tail) ↔ Enclosed quote tail := by
  constructor
  · intro enclosed
    cases enclosed with
    | plain proper => exact absurd rfl proper
    | pair later => exact later
  · exact .pair

theorem not_enclosed_backslash : ¬ Enclosed quote ['\\'] := by
  intro enclosed
  cases enclosed with
  | plain proper => exact proper rfl

/-- Whether an escaped text is the inside of a quoted text, if the front has left no backslash
without a partner, and if it has left one. -/
theorem enclosed_escape_iff (proper : quote ≠ '\\') (line : quote ≠ '\n') (front cs : List Char) :
    (Even (Text.backslashes front) →
      (Enclosed quote (Text.escape quote cs) ↔ Text.Paired quote front cs)) ∧
    (Odd (Text.backslashes front) →
      (Enclosed quote ('\\' :: Text.escape quote cs) ↔ Text.Paired quote front cs)) := by
  -- on the text, with what has been passed as the front: behind an odd run the next character is
  -- the partner of a backslash, whatever it is
  induction cs generalizing front with
  | nil =>
      rw [Text.paired_nil, Text.escape]
      refine ⟨fun even => iff_of_true .nil even, fun odd => ?_⟩
      exact iff_of_false not_enclosed_backslash (Nat.not_even_iff_odd.mpr odd)
  | cons c cs ih =>
      obtain ⟨ihEven, ihOdd⟩ := ih (front ++ [c])
      rw [Text.paired_cons, Text.escape]
      by_cases backslash : c = '\\'
      · subst backslash
        rw [Text.backslashes_backslash] at ihEven ihOdd
        rw [if_neg proper.symm]
        refine ⟨fun even => ?_, fun odd => ?_⟩
        · rw [ihOdd even.add_one]
          simp [proper.symm]
        · rw [enclosed_pair, ihEven odd.add_one]
          simp [proper.symm]
      rw [Text.backslashes_concat front backslash] at ihEven
      have later := ihEven Even.zero
      by_cases isQuote : c = quote
      · subst isQuote
        rw [if_pos rfl]
        refine ⟨fun even => ?_, fun odd => ?_⟩
        · rw [enclosed_pair, later]
          simp [line, even]
        · rw [enclosed_pair, enclosed_cons backslash]
          simp [Nat.not_even_iff_odd.mpr odd]
      · rw [if_neg isQuote]
        refine ⟨fun even => ?_, fun odd => ?_⟩
        · rw [enclosed_cons backslash, later]
          simp [isQuote, Nat.not_odd_iff_even.mpr even]
        · rw [enclosed_pair, later]
          simp [isQuote, odd]

theorem Enclosed.head?_ne (proper : quote ≠ '\\') (enclosed : Enclosed quote inside) :
    inside.head? ≠ some quote := by
  cases enclosed with
  | nil => exact nofun
  | plain _ other => exact fun same => other (Option.some.inj same)
  | pair => exact fun same => proper (Option.some.inj same).symm

/-- Escapes are what is left of an inside whose quotes have lost their backslashes. -/
theorem Enclosed.escape_unescape (proper : quote ≠ '\\') (enclosed : Enclosed quote inside) :
    Text.escape quote (Text.unescape quote inside) = inside := by
  induction enclosed with
  | nil => rfl
  | plain other notQuote _ _ ih =>
      rw [Text.unescape_cons fun backslash => absurd backslash other, Text.escape, if_neg notQuote,
        ih]
  | @pair c tail later ih =>
      by_cases isQuote : c = quote
      · rw [isQuote, Text.unescape_pair, Text.escape, if_pos rfl, ih]
      · -- behind a pair of backslashes no quote starts a pair of its own
        have first : (c :: tail).head? ≠ some quote := fun same => isQuote (Option.some.inj same)
        have second : tail.head? ≠ some quote := later.head?_ne proper
        rw [Text.unescape_cons fun _ => first, Text.unescape_cons fun _ => second, Text.escape,
          if_neg proper.symm, Text.escape, if_neg isQuote, ih]

end Inside

/-! ## Quoted tokens -/

section Quoted

variable {kind : Token.Kind} {quote : Char} {text rest inside : List Char} {p : Position}

theorem Matches.exists_inside (found : Matches kind text rest) (quoted : kind.quote? = some quote) :
    ∃ inside, text = quote :: (inside ++ [quote]) ∧ Enclosed quote inside := by
  cases found with
  | quoted known enclosed =>
      rw [known] at quoted
      cases quoted
      exact ⟨_, rfl, enclosed⟩
  | symbol symbol =>
      have none : kind.symbol = "" := by cases kind <;> cases quoted <;> rfl
      rw [symbol] at none
      simp at none
  | _ => cases quoted

/-- A text between quotes that is the first token of itself is closed by its last quote only. -/
theorem enclosed_of_tokens {t : Token} {ts : List Token} (quoted : kind.quote? = some quote)
    (lexed : tokens p (quote :: (inside ++ [quote])) = .ok (t :: ts))
    (whole : t.text.toList = quote :: (inside ++ [quote])) : Enclosed quote inside := by
  have isQuote := isQuote_of_quote? quoted
  obtain ⟨first, rest, split, enclosed, stop⟩ := exists_enclosed quote (inside ++ [quote])
  rw [split] at lexed whole
  cases stop with
  | @close more =>
      have found : Matches kind (quote :: (first ++ [quote])) more := .quoted quoted enclosed
      have proper : kind ≠ .eof := by
        rintro rfl
        cases quoted
      rw [List.append_cons, ← List.cons_append, tokens_of_matches found proper] at lexed
      obtain ⟨later, tail, equal⟩ := of_tokens_token lexed
      rw [(List.cons.inj equal).1, String.toList_ofList] at whole
      have ends : more = [] := by simpa using whole
      rw [ends, List.append_left_inj] at split
      rwa [split]
  | line =>
      rw [tokens_of_unended (.line isQuote enclosed)] at lexed
      cases lexed
  | lone =>
      rw [tokens_of_unended (.escape isQuote enclosed)] at lexed
      cases lexed
  | done =>
      rw [List.append_nil, tokens_of_unended (.stop isQuote enclosed)] at lexed
      cases lexed

end Quoted

end Lexer

/-! ## Quotations -/

namespace Token

/-- That a token is one of a source. -/
def Lexed (t : Token) : Prop := ∃ source tokens, lex source = .ok tokens ∧ t ∈ tokens

/-- The tokens of a source that is a single token. -/
def single (kind : Kind) (source : String) : List Token :=
  [⟨kind, source, Span.between .origin (.behind source.toList)⟩,
    ⟨.eof, "", Span.between (.behind source.toList) (.behind source.toList)⟩]

/-- A source that matches a kind as a whole is one token. -/
theorem lex_single {kind : Kind} {source : String}
    (found : Lexer.Matches kind source.toList []) (proper : kind ≠ .eof) :
    lex source = .ok (single kind source) := by
  have read := Lexer.tokens_of_matches (p := .origin) found proper
  rw [List.append_nil, Lexer.tokens_nil, Position.origin_eq_behind, Position.after_behind,
    String.ofList_toList] at read
  rw [lex, single, Position.origin_eq_behind, read]
  rfl

theorem unquoted_quotation {quote : Char} (proper : quote ≠ '\\') (s : String) :
    Node.unquoted quote (Text.quotation quote s) = s := by
  rw [Node.unquoted, Text.quotation, String.toList_ofList, Text.unquote_quoted proper,
    String.ofList_toList]

section Kinds

variable {kind : Kind} {quote : Char}

/-- A quoted token is the quotation of what it stands for. -/
theorem Lexed.quotation_unquoted {t : Token} (lexed : t.Lexed) (quoted : t.kind.quote? = some quote)
    (proper : quote ≠ '\\') : Text.quotation quote (Node.unquoted quote t.text) = t.text := by
  obtain ⟨source, tokens, lexed, member⟩ := lexed
  obtain ⟨rest, found⟩ := exists_matches lexed member
  obtain ⟨inside, text, enclosed⟩ := found.exists_inside quoted
  rw [Node.unquoted, Text.quotation, String.toList_ofList, text, Text.unquote_between, Text.quoted,
    enclosed.escape_unescape proper, List.cons_append, ← text, String.ofList_toList]

theorem lex_quotation_of_enclosed (quoted : kind.quote? = some quote) {s : String}
    (enclosed : Lexer.Enclosed quote (Text.escape quote s.toList)) :
    lex (Text.quotation quote s) = .ok (single kind (Text.quotation quote s)) := by
  have found : Lexer.Matches kind (Text.quotation quote s).toList [] := by
    rw [Text.quotation, String.toList_ofList]
    exact .quoted quoted enclosed
  apply lex_single found
  rintro rfl
  cases quoted

end Kinds

/-- **Quoting and unquoting are inverse**, and a quotation is one token if and only if the
backslashes of the text pair up. -/
theorem lex_quotation {kind : Kind} {quote : Char} (quoted : kind.quote? = some quote) :
    (∀ s : String, Node.unquoted quote (Text.quotation quote s) = s) ∧
    (∀ t : Token, t.Lexed → t.kind = kind →
      Text.quotation quote (Node.unquoted quote t.text) = t.text) ∧
    (∀ t u : Token, t.Lexed → u.Lexed → t.kind = kind → u.kind = kind →
      Node.unquoted quote t.text = Node.unquoted quote u.text → t.text = u.text) ∧
    ∀ s : String, List.TFAE [
      lex (Text.quotation quote s) = .ok (single kind (Text.quotation quote s)),
      ∃ t e, lex (Text.quotation quote s) = .ok [t, e] ∧ t.text = Text.quotation quote s,
      Text.Paired quote [] s.toList] := by
  have proper : quote ≠ '\\' ∧ quote ≠ '\n' := by
    rcases Lexer.isQuote_of_quote? quoted with rfl | rfl <;> decide
  have written (t : Token) (lexed : t.Lexed) (isKind : t.kind = kind) :
      Text.quotation quote (Node.unquoted quote t.text) = t.text :=
    lexed.quotation_unquoted (isKind ▸ quoted) proper.1
  refine ⟨unquoted_quotation proper.1, written, ?_, fun s => ?_⟩
  · intro t u lexedT lexedU isKind isKindToo same
    rw [← written t lexedT isKind, ← written u lexedU isKindToo, same]
  · have paired := (Lexer.enclosed_escape_iff proper.1 proper.2 [] s.toList).1 Even.zero
    tfae_have 1 → 2 := fun lexed => ⟨_, _, lexed, rfl⟩
    tfae_have 2 → 3 := by
      rintro ⟨t, e, lexed, whole⟩
      rw [← paired]
      rw [lex, Text.quotation, String.toList_ofList] at lexed
      apply Lexer.enclosed_of_tokens quoted lexed
      rw [whole, Text.quotation, String.toList_ofList]
      rfl
    tfae_have 3 → 1 := fun fits => lex_quotation_of_enclosed quoted (paired.mpr fits)
    tfae_finish

/-- A quote is kept behind one backslash and behind two; the quotation of the first text is no
token, that of the second is one, and so is that of a line end behind a backslash. -/
theorem lex_quotation_backslashes :
    Kind.singleQuoted.quote? = some '\'' ∧ Node.unquoted '\'' "'\\\\''" = "\\'" ∧
      Text.quotation '\'' (Node.unquoted '\'' "'\\\\\\''") = "'\\\\\\''" ∧
      ¬ Text.Paired '\'' [] "\\'".toList ∧ Text.Paired '\'' [] "\\\\'".toList ∧
      Text.Paired '\'' [] "\\\n".toList := by
  obtain ⟨inverse, written, -, paired⟩ := @lex_quotation .singleQuoted '\'' rfl
  have lexed : lex "'\\\\\\''" = .ok (Token.single .singleQuoted "'\\\\\\''") := by decide +kernel
  have overLines : lex "'\\\n'" = .ok (Token.single .singleQuoted "'\\\n'") := by decide +kernel
  have broken : lex "'\\\\''" ≠ .ok (Token.single .singleQuoted "'\\\\''") := by decide +kernel
  refine ⟨rfl, inverse "\\'", ?_, ?_, ?_, ?_⟩
  · exact written ⟨.singleQuoted, "'\\\\\\''", _⟩ ⟨_, _, lexed, List.mem_cons_self⟩ rfl
  · exact fun fits => broken (((paired "\\'").out 0 2).mpr fits)
  · exact ((paired "\\\\'").out 0 2).mp lexed
  · exact ((paired "\\\n").out 0 2).mp overLines

end Token

end EntityFlow
