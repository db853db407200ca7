import EntityFlow.Proofs.Token.Scanning
import EntityFlow.Proofs.Value.Written

/-!
# The tokens of written values

A written value is cut into the tokens that its parts are written as: `Value.lexemes` lists them by
kind and text, and `Lexer.lexes_source` says that the lexer finds exactly these wherever the value
stands, if what follows cannot be taken for a part of it.
-/

namespace EntityFlow

/-- The kind and the text of a token. -/
def Token.lexeme (t : Token) : Token.Kind × String := (t.kind, t.text)

namespace Lexer

/-- That a text has tokens with the given kinds and texts in front of `rest`, wherever it stands. -/
def Lexes (text : List Char) (lexemes : List (Token.Kind × String)) (rest : List Char) : Prop :=
  ∀ p : Position, ∃ ts : List Token, ts.map Token.lexeme = lexemes ∧
    tokens p (text ++ rest) = (tokens (p.after text) rest).map (ts ++ ·)

namespace Lexes

variable {text more rest : List Char} {ks ls : List (Token.Kind × String)}

theorem nil (rest : List Char) : Lexes [] [] rest := by
  intro p
  refine ⟨[], rfl, ?_⟩
  show tokens p rest = Except.map ([] ++ ·) (tokens p rest)
  cases tokens p rest <;> rfl

theorem append (first : Lexes text ks (more ++ rest)) (second : Lexes more ls rest) :
    Lexes (text ++ more) (ks ++ ls) rest := by
  intro p
  obtain ⟨ts, known, split⟩ := first p
  obtain ⟨us, knownMore, splitMore⟩ := second (p.after text)
  refine ⟨ts ++ us, by rw [List.map_append, known, knownMore], ?_⟩
  rw [List.append_assoc, split, splitMore, Position.after_append]
  cases tokens ((p.after text).after more) rest <;> simp [Except.map]

/-- A text that is one token. -/
theorem of_matches {kind : Token.Kind} (found : Matches kind text rest) (proper : kind ≠ .eof) :
    Lexes text [(kind, String.ofList text)] rest := by
  intro p
  refine ⟨[⟨kind, String.ofList text, Span.between p (p.after text)⟩], rfl, ?_⟩
  rw [tokens_of_matches found proper]
  rfl

/-- Blanks are no tokens. -/
theorem blanks (blank : ∀ c ∈ text, Text.isBlank c = true) : Lexes text [] rest := by
  induction text with
  | nil => exact nil rest
  | cons c text ih =>
      obtain ⟨first, others⟩ := List.forall_mem_cons.mp blank
      intro p
      obtain ⟨ts, known, split⟩ := ih others (p.after [c])
      refine ⟨ts, known, ?_⟩
      have skipped : Skipped [c] (text ++ rest) := .blank first
      exact (tokens_of_skipped skipped).trans split

end Lexes

/-! ## Texts in front of a delimiter -/

/-- The characters that end a word and a number. -/
def delimiters : List Char := [',', ':', ']', '\x7d', '(', ')', ' ']

/-- That what follows starts with a delimiter. -/
def Delimited (rest : List Char) : Prop := ∃ c more, rest = c :: more ∧ c ∈ delimiters

theorem delimiters_end : ∀ c ∈ delimiters,
    c.isDigit = false ∧ c ≠ '.' ∧ continuesWord c = false := by
  simp only [delimiters, List.forall_mem_cons, List.not_mem_nil, false_implies, implies_true]
  decide +kernel

section Delimited

variable {c : Char} {rest : List Char}

theorem Delimited.ends {p : Char → Bool} (stops : ∀ c ∈ delimiters, p c = false)
    (delimited : Delimited rest) : ∀ d ∈ rest.head?, p d = false := by
  obtain ⟨d, more, rfl, delimiter⟩ := delimited
  rintro e ⟨⟩
  exact stops d delimiter

theorem Delimited.digits_end (delimited : Delimited rest) : ∀ d ∈ rest.head?, d.isDigit = false :=
  delimited.ends fun d delimiter => (delimiters_end d delimiter).1

theorem Delimited.word_ends (delimited : Delimited rest) :
    ∀ d ∈ rest.head?, continuesWord d = false :=
  delimited.ends fun d delimiter => (delimiters_end d delimiter).2.2

theorem Delimited.no_point (delimited : Delimited rest) (more : List Char) :
    rest ≠ '.' :: more := by
  obtain ⟨d, tail, rfl, delimiter⟩ := delimited
  intro point
  exact (delimiters_end d delimiter).2.1 (List.cons.inj point).1

/-- A character of punctuation is a token of its own. -/
theorem matches_symbol (symbol : c ∈ [',', ':', '[', ']', '\x7b', '\x7d', '(', ')', '@']) :
    Matches (Token.Kind.ofChar c) [c] rest := by
  simp only [List.mem_cons, List.not_mem_nil, or_false] at symbol
  rcases symbol with rfl | rfl | rfl | rfl | rfl | rfl | rfl | rfl | rfl <;> exact .symbol rfl

/-- A word in front of a delimiter. -/
theorem matches_word (letter : c ∈ ['t', 'f', 'e', 'E', 'o']) {tail : List Char}
    (continued : ∀ d ∈ tail, continuesWord d = true) (delimited : Delimited rest) :
    Matches .word (c :: tail) rest := by
  have starts : startsWord c = true := by
    simp only [List.mem_cons, List.not_mem_nil, or_false] at letter
    rcases letter with rfl | rfl | rfl | rfl | rfl <;> decide
  exact .word starts continued delimited.word_ends

end Delimited

/-! ## The parts of values -/

section Parts

variable {rest : List Char}

theorem lexes_symbol {c : Char} (symbol : c ∈ [',', ':', '[', ']', '\x7b', '\x7d', '(', ')', '@']) :
    Lexes [c] [(Token.Kind.ofChar c, String.ofList [c])] rest :=
  .of_matches (matches_symbol symbol) (kindOfChar_ne_eof c)

/-- The first character of a number with what follows it up to the point or the end. -/
theorem signed_eq_cons (n : Int) {whole : List Char} (some : whole ≠ [])
    (digits : ∀ c ∈ whole, c.isDigit = true) :
    ∃ c tail, (∀ more, Integer.signed n (whole ++ more) = c :: (tail ++ more)) ∧ Whole c tail := by
  obtain ⟨d, ds, rfl⟩ := List.exists_cons_of_ne_nil some
  by_cases negative : n < 0
  · exact ⟨'-', d :: ds, fun more => if_pos negative, .inr ⟨rfl, some⟩, digits⟩
  · obtain ⟨first, others⟩ := List.forall_mem_cons.mp digits
    exact ⟨d, ds, fun more => if_neg negative, .inl first, others⟩

theorem lexes_integer (n : Int) (delimited : Delimited rest) :
    Lexes (Integer.text n).toList [(.int, Integer.text n)] rest := by
  obtain ⟨c, tail, text, whole⟩ :=
    signed_eq_cons n Nat.toDigits_ne_nil (Integer.isDigit_of_mem_digits (n := n.natAbs))
  have written : (Integer.text n).toList = c :: tail := by
    rw [Integer.text_toList, ← List.append_nil tail, ← text, List.append_nil]
    rfl
  have found : Matches .int (c :: tail) rest :=
    .int whole delimited.digits_end fun d more point => absurd point (delimited.no_point _)
  have token := Lexes.of_matches found (by decide)
  rwa [← written, String.ofList_toList] at token

theorem lexes_decimal {d : Decimal} (places : 1 ≤ d.scale) (delimited : Delimited rest) :
    Lexes d.plain [(.number, String.ofList d.plain)] rest := by
  obtain ⟨front, fraction, written, frontSome, some, _, areDigits, _⟩ := Decimal.plain_eq places
  obtain ⟨frontDigits, fractionDigits⟩ := List.forall_mem_append.mp areDigits
  obtain ⟨c, tail, text, whole⟩ := signed_eq_cons d.coefficient frontSome frontDigits
  rw [written, text]
  exact .of_matches (.number whole some fractionDigits delimited.digits_end) (by decide)

theorem enclosed_escape (quote : Char) {cs : List Char} (line : '\n' ∉ cs) (plain : '\\' ∉ cs) :
    Enclosed quote (Text.escape quote cs) := by
  induction cs with
  | nil => exact .nil
  | cons c cs ih =>
      obtain ⟨noLine, linesLater⟩ : '\n' ≠ c ∧ '\n' ∉ cs := by simpa using line
      obtain ⟨proper, plainLater⟩ : '\\' ≠ c ∧ '\\' ∉ cs := by simpa using plain
      have later := ih linesLater plainLater
      unfold Text.escape
      split
      · exact .pair later
      · rename_i other
        exact .plain proper.symm other noLine.symm later

theorem matches_quoted {s : String} (plain : Value.Plain s) :
    Matches .doubleQuoted (Text.quoted '"' s.toList) rest :=
  .quoted rfl (enclosed_escape '"' plain.1 plain.2)

theorem lexes_quoted {s : String} (plain : Value.Plain s) :
    Lexes (Text.quoted '"' s.toList)
      [(.doubleQuoted, String.ofList (Text.quoted '"' s.toList))] rest :=
  .of_matches (matches_quoted plain) (by decide)

end Parts

end Lexer

/-! ## Whole values -/

namespace Value

mutual

/-- The kinds and texts of the tokens that a written value is made of. -/
def lexemes : Value → List (Token.Kind × String)
  | .string s => [(.doubleQuoted, String.ofList (Text.quoted '"' s.toList))]
  | .integer n => [(.int, Integer.text n)]
  | .decimal d => [(.number, String.ofList d.plain)]
  | .boolean b => [(.word, if b then "true" else "false")]
  | .sequence items => (.lBracket, "[") :: itemLexemes [] items ++ [(.rBracket, "]")]
  | .mapping entries => (.lBrace, "\x7b") :: entryLexemes [] entries ++ [(.rBrace, "\x7d")]

/-- Those of items, the first one after `lead` and every other one after a comma. -/
def itemLexemes (lead : List (Token.Kind × String)) : List Value → List (Token.Kind × String)
  | [] => []
  | item :: rest => lead ++ item.lexemes ++ itemLexemes [(.comma, ",")] rest

/-- Those of entries, the first one after `lead` and every other one after a comma. -/
def entryLexemes (lead : List (Token.Kind × String)) :
    List (String × Value) → List (Token.Kind × String)
  | [] => []
  | (key, item) :: rest =>
      lead ++ [(.doubleQuoted, String.ofList (Text.quoted '"' key.toList)), (.colon, ":")] ++
        item.lexemes ++ entryLexemes [(.comma, ",")] rest

end

end Value

namespace Lexer

/-- A value is cut into its lexemes in front of any delimiter. -/
abbrev Cuts (v : Value) : Prop := ∀ rest, Delimited rest → Lexes v.source v.lexemes rest

theorem delimited_cons {c : Char} (delimiter : c ∈ delimiters) (rest : List Char) :
    Delimited (c :: rest) :=
  ⟨c, rest, rfl, delimiter⟩

theorem lexes_comma (rest : List Char) : Lexes [',', ' '] [(.comma, ",")] rest :=
  .append (lexes_symbol (by decide)) (.blanks (List.all_eq_true.mp (by decide)))

section Values

variable {rest : List Char} {lead : List Char} {leadLexemes : List (Token.Kind × String)}

theorem lexes_items {items : List Value} (each : ∀ item ∈ items, Cuts item)
    (front : ∀ rest, Lexes lead leadLexemes rest) (delimited : Delimited rest) :
    Lexes (Value.itemsSource lead items) (Value.itemLexemes leadLexemes items) rest := by
  induction items generalizing lead leadLexemes with
  | nil => exact .nil rest
  | cons item items ih =>
      obtain ⟨first, others⟩ := List.forall_mem_cons.mp each
      have later := ih others lexes_comma
      have follows : Delimited (Value.itemsSource [',', ' '] items ++ rest) := by
        cases items with
        | nil => exact delimited
        | cons => exact delimited_cons (by decide) _
      rw [Value.itemsSource, Value.itemLexemes]
      exact ((front _).append (first _ follows)).append later

theorem lexes_entries {entries : List (String × Value)}
    (plain : ∀ entry ∈ entries, Value.Plain entry.1) (each : ∀ entry ∈ entries, Cuts entry.2)
    (front : ∀ rest, Lexes lead leadLexemes rest) (delimited : Delimited rest) :
    Lexes (Value.entriesSource lead entries) (Value.entryLexemes leadLexemes entries) rest := by
  induction entries generalizing lead leadLexemes with
  | nil => exact .nil rest
  | cons entry entries ih =>
      obtain ⟨key, item⟩ := entry
      obtain ⟨plainFirst, plainOthers⟩ := List.forall_mem_cons.mp plain
      obtain ⟨first, others⟩ := List.forall_mem_cons.mp each
      have later := ih plainOthers others lexes_comma
      have follows : Delimited (Value.entriesSource [',', ' '] entries ++ rest) := by
        cases entries with
        | nil => exact delimited
        | cons => exact delimited_cons (by decide) _
      have colon (rest : List Char) : Lexes [':', ' '] [(.colon, ":")] rest :=
        .append (lexes_symbol (by decide)) (.blanks (List.all_eq_true.mp (by decide)))
      rw [Value.entriesSource, Value.entryLexemes]
      have keyed := ((front _).append (lexes_quoted plainFirst)).append
        (colon (item.source ++ (Value.entriesSource [',', ' '] entries ++ rest)))
      rw [List.append_assoc leadLexemes] at keyed
      exact (keyed.append (first _ follows)).append later

end Values

/-- A written value is cut into its lexemes. -/
theorem lexes_source {v : Value} (written : v.Written) : Cuts v := by
  induction written with
  | string plain => exact fun rest _ => lexes_quoted plain
  | @integer n => exact fun rest delimited => lexes_integer n delimited
  | decimal places => exact fun rest delimited => lexes_decimal places delimited
  | @boolean b =>
      intro rest delimited
      cases b <;> exact .of_matches
        (matches_word (by decide) (List.all_eq_true.mp (by decide)) delimited) (by decide)
  | sequence _ ih =>
      intro rest _
      rw [Value.source, Value.lexemes]
      have close : Lexes [']'] [(.rBracket, "]")] rest := lexes_symbol (by decide)
      have items := lexes_items ih (fun rest => .nil rest)
        (delimited_cons (by decide : ']' ∈ delimiters) rest)
      exact Lexes.append (Lexes.append (lexes_symbol (by decide)) items) close
  | mapping plain _ _ ih =>
      intro rest _
      rw [Value.source, Value.lexemes]
      have close : Lexes ['\x7d'] [(.rBrace, "\x7d")] rest := lexes_symbol (by decide)
      have entries := lexes_entries plain ih (fun rest => .nil rest)
        (delimited_cons (by decide : '\x7d' ∈ delimiters) rest)
      exact Lexes.append (Lexes.append (lexes_symbol (by decide)) entries) close

end Lexer

end EntityFlow
