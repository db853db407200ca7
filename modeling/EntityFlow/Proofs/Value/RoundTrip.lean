import EntityFlow.Proofs.Document.Strictness
import EntityFlow.Proofs.Value.Reading

/-!
# Values through compilation

A written value survives compilation: as the value of an option it is found in the document as it
was, the order of its mappings and the scales of its decimals included (`compile_written`). The
source is the option with the value, followed by an entity that has it.
-/

namespace EntityFlow

/-! ## The tokens of the source -/

/-- The three tokens in front of the value. -/
def Token.optionFront : List Token :=
  [⟨.at, "@", ⟨0, 1, 1, 1, 1, 2⟩⟩, ⟨.word, "o", ⟨1, 2, 1, 2, 1, 3⟩⟩,
    ⟨.lParen, "(", ⟨2, 3, 1, 3, 1, 4⟩⟩]

namespace Lexer

theorem tokens_optionFront (rest : List Char) :
    tokens .origin ('@' :: 'o' :: '(' :: rest) =
      (tokens ⟨3, 1, 4⟩ rest).map (Token.optionFront ++ ·) := by
  have symbol {c : Char} (known : c ∈ [',', ':', '[', ']', '\x7b', '\x7d', '(', ')', '@'])
      (rest : List Char) : scan c rest = .token (Token.Kind.ofChar c) [c] rest :=
    scan_of_matches (matches_symbol known)
  have name : scan 'o' ('(' :: rest) = .token .word ['o'] ('(' :: rest) :=
    scan_of_matches (matches_word (by decide) (List.forall_mem_nil _)
      (delimited_cons (by decide) rest))
  rw [tokens_token (symbol (by decide) _), tokens_token name, tokens_token (symbol (by decide) _)]
  show Except.map _ (Except.map _ (Except.map _ (tokens ⟨3, 1, 4⟩ rest))) = _
  cases tokens ⟨3, 1, 4⟩ rest <;> rfl

/-- What stands behind the value: the closing parenthesis and an entity. -/
theorem lexes_entity {gap : List Char} (blank : ∀ c ∈ gap, Text.isBlank c = true) :
    Lexes (')' :: (gap ++ "entity E \x7b\x7d".toList))
      [(.rParen, ")"), (.word, "entity"), (.word, "E"), (.lBrace, "\x7b"), (.rBrace, "\x7d")]
      [] := by
  have space (rest : List Char) : Lexes [' '] [] rest :=
    .blanks (List.all_eq_true.mp (by decide))
  have word : Lexes "entity".toList [(.word, "entity")] " E \x7b\x7d".toList :=
    .of_matches (matches_word (by decide) (List.all_eq_true.mp (by decide))
      (delimited_cons (by decide) _)) (by decide)
  have name : Lexes "E".toList [(.word, "E")] " \x7b\x7d".toList :=
    .of_matches (matches_word (by decide) (List.forall_mem_nil _)
      (delimited_cons (by decide) _)) (by decide)
  have braces : Lexes ['\x7b', '\x7d'] [(.lBrace, "\x7b"), (.rBrace, "\x7d")] [] :=
    .append (lexes_symbol (by decide)) (lexes_symbol (by decide))
  have entity : Lexes "entity E \x7b\x7d".toList
      [(.word, "entity"), (.word, "E"), (.lBrace, "\x7b"), (.rBrace, "\x7d")] [] :=
    .append word (.append (space _) (.append name (.append (space _) braces)))
  exact .append (lexes_symbol (by decide)) (.append (.blanks blank) entity)

end Lexer

/-- The tokens of an option with a written value and of the entity behind it. -/
theorem Token.lex_written {v : Value} (written : v.Written) {gap : String}
    (blank : ∀ c ∈ gap.toList, Text.isBlank c = true) :
    ∃ ts us p, ts.map Token.lexeme = v.lexemes ∧
      us.map Token.lexeme =
        [(.rParen, ")"), (.word, "entity"), (.word, "E"), (.lBrace, "\x7b"), (.rBrace, "\x7d")] ∧
      Token.lex ("@o(" ++ String.ofList v.source ++ ")" ++ gap ++ "entity E \x7b\x7d") =
        .ok (Token.optionFront ++ (ts ++ (us ++ [⟨.eof, "", Span.between p p⟩]))) := by
  have chars : ("@o(" ++ String.ofList v.source ++ ")" ++ gap ++ "entity E \x7b\x7d").toList =
      '@' :: 'o' :: '(' ::
        (v.source ++ (')' :: (gap.toList ++ "entity E \x7b\x7d".toList) ++ [])) := by
    simp
  obtain ⟨ts, known, split⟩ := Lexer.lexes_source written
    (')' :: (gap.toList ++ "entity E \x7b\x7d".toList) ++ []) (Lexer.delimited_cons (by decide) _)
    ⟨3, 1, 4⟩
  obtain ⟨us, knownMore, splitMore⟩ := Lexer.lexes_entity blank (Position.after ⟨3, 1, 4⟩ v.source)
  rw [Lexer.tokens] at splitMore
  generalize (Position.after ⟨3, 1, 4⟩ v.source).after _ = p at splitMore
  refine ⟨ts, us, p, known, knownMore, ?_⟩
  unfold Token.lex
  rw [chars, Lexer.tokens_optionFront, split, splitMore]
  rfl

/-! ## The tree of the source -/

/-- An entity with one option, whatever its texts and places are. -/
inductive Node.HasOption (value : Node) : Node → Prop
  | intro {text textOption textValue span spanOption spanKey spanValue spanName} : HasOption value
      ⟨.entity, text, span,
        [⟨.option, textOption, spanOption,
          [⟨.optionName, "o", spanKey, []⟩, ⟨.optionValue, textValue, spanValue, [value]⟩]⟩,
        ⟨.entityName, "E", spanName, []⟩]⟩

/-- The option of an entity is found in its document. -/
theorem Model.lookup?_option {value entity : Node} (option : Node.HasOption value entity)
    (text : String) (span : Span) :
    (ofEntityTree ⟨.zdl, text, span, [entity]⟩).document.lookup? "entities.E.options.o" =
      some value.toValue := by
  have segments : Value.segments "entities.E.options.o" =
      ["entities".toList, "E".toList, "options".toList, "o".toList] := by decide +kernel
  cases option
  unfold Value.lookup?
  rw [segments]
  rfl

namespace Grammar

/-- The option in front of the entity. -/
theorem accepts_option {v : Value} (written : v.Written) {ts : List Token} {close u : Token}
    {rest : List Token} (known : ts.map Token.lexeme = v.lexemes) (closes : close.kind = .rParen) :
    ∃ n text span textValue spanName spanValue, n.toValue = v ∧
      Accepts option 0 (.start (Token.optionFront ++ (ts ++ close :: u :: rest)))
        [⟨.option, text, span,
          [⟨.optionName, "o", spanName, []⟩, ⟨.optionValue, textValue, spanValue, [n]⟩]⟩]
        ⟨some close, u :: rest⟩ := by
  let sign : Token := ⟨.at, "@", ⟨0, 1, 1, 1, 1, 2⟩⟩
  let word : Token := ⟨.word, "o", ⟨1, 2, 1, 2, 1, 3⟩⟩
  let opening : Token := ⟨.lParen, "(", ⟨2, 3, 1, 3, 1, 4⟩⟩
  let behind : List Token := ts ++ close :: u :: rest
  have more : behind ≠ [] := by simp [behind]
  have toName : Accepts (symbol .at) 0 ⟨none, sign :: word :: opening :: behind⟩ []
      ⟨some sign, word :: opening :: behind⟩ := accepts_symbol rfl rfl (by simp)
  obtain ⟨spanName, acceptsName⟩ : ∃ span, Accepts (name .optionName) 0
      ⟨some sign, word :: opening :: behind⟩ [⟨.optionName, "o", span, []⟩]
      ⟨some word, opening :: behind⟩ :=
    accepts_name .optionName (t := word) (u := opening) rfl rfl (by decide)
  have toValue : Accepts take 0 ⟨some word, opening :: behind⟩ [] ⟨some opening, behind⟩ :=
    accepts_take rfl more
  obtain ⟨n, d, stands, ahead, acceptsValue⟩ :=
    fits_value written 0 ⟨some opening, behind⟩ ts (close :: u :: rest) rfl known (by simp)
  have toEnd : Accepts (symbol .rParen) 0 d [] ⟨some close, u :: rest⟩ :=
    accepts_symbol ahead closes (by simp)
  exact ⟨n, _, _, _, spanName, _, stands, .node .done (.seq toName (.seq (.yes rfl acceptsName)
    (.yes rfl (.seq toValue (.seq (.node .done acceptsValue) toEnd)))))⟩

/-- The whole source. -/
theorem accepts_written {v : Value} (written : v.Written) {ts us : List Token} {p : Position}
    (known : ts.map Token.lexeme = v.lexemes)
    (knownMore : us.map Token.lexeme =
      [(.rParen, ")"), (.word, "entity"), (.word, "E"), (.lBrace, "\x7b"), (.rBrace, "\x7d")]) :
    ∃ n entity d, n.toValue = v ∧ Node.HasOption n entity ∧
      Accepts Entity.source 0
        (.start (Token.optionFront ++ (ts ++ (us ++ [⟨.eof, "", Span.between p p⟩]))))
        [entity] d := by
  obtain ⟨closeSpan, _, rfl, knownEntity⟩ := of_lexeme_cons knownMore
  obtain ⟨entitySpan, _, rfl, knownName⟩ := of_lexeme_cons knownEntity
  obtain ⟨nameSpan, _, rfl, knownLeft⟩ := of_lexeme_cons knownName
  obtain ⟨leftSpan, _, rfl, knownRight⟩ := of_lexeme_cons knownLeft
  obtain ⟨rightSpan, none, rfl, nothing⟩ := of_lexeme_cons knownRight
  rw [List.map_eq_nil_iff.mp nothing]
  let close : Token := ⟨.rParen, ")", closeSpan⟩
  let entity : Token := ⟨.word, "entity", entitySpan⟩
  let word : Token := ⟨.word, "E", nameSpan⟩
  let left : Token := ⟨.lBrace, "\x7b", leftSpan⟩
  let right : Token := ⟨.rBrace, "\x7d", rightSpan⟩
  let last : Token := ⟨.eof, "", Span.between p p⟩
  let behind : List Token := [entity, word, left, right, last]
  let first : Cursor := .start (Token.optionFront ++ (ts ++ close :: behind))
  obtain ⟨n, text, span, textValue, spanName, spanValue, stands, acceptsOption⟩ :=
    @accepts_option v written ts close entity [word, left, right, last] known rfl
  -- the option is all that stands in front of the entity
  have lead : Accepts (seq javadoc options) 0 first
      [⟨.option, text, span,
        [⟨.optionName, "o", spanName, []⟩, ⟨.optionValue, textValue, spanValue, [n]⟩]⟩]
      ⟨some close, behind⟩ := .seq (.last (.stop rfl)) (.more rfl acceptsOption (.stop rfl))
  obtain ⟨spanEntity, acceptsName⟩ : ∃ span, Accepts (name .entityName) 0
      ⟨some entity, [word, left, right, last]⟩ [⟨.entityName, "E", span, []⟩]
      ⟨some word, [left, right, last]⟩ :=
    accepts_name .entityName (t := word) (u := left) rfl rfl (by simp [left])
  have body : Accepts Entity.entity 0 ⟨some close, behind⟩
      [⟨.entityName, "E", spanEntity, []⟩] ⟨some right, [last]⟩ :=
    .seq .take (.seq acceptsName (.seq (.no rfl .done)
      (.seq (.yes rfl .take) (.seq (.stop rfl) (.yes rfl .take)))))
  exact ⟨n, _, ⟨some right, [last]⟩, stands, .intro, .seq (.no rfl .done)
    (.seq (.stop rfl) (.more rfl (.intact (.node lead (.yes rfl body))) (.stop rfl)))⟩

end Grammar

/-! ## Compilation -/

/-- A source that is accepted as a whole is compiled under all options to the model of its tree, and
without diagnostics. -/
theorem compile_of_accepts {source : String} {tokens : List Token} {ns : List Node} {d : Cursor}
    (lexed : Token.lex source = .ok tokens)
    (accepts : Accepts Grammar.Entity.source 0 (.start tokens) ns d) (options : CompileOptions) :
    ∃ m, compile .entity options source = .ok m ∧ m.diagnostics = [] ∧
      m.document = (Model.ofEntityTree (Node.ofTokens .zdl (.start tokens) d ns)).document := by
  have ended : Token.Ended tokens := (Token.lex_inOrder lexed).ended
  obtain ⟨strict, limit⟩ := options
  obtain ⟨ns', last, reads, _, parsed⟩ := Parse.ofTokens_reads .entity limit ended
  cases reads.unique (accepts.reads (max limit 1) [])
  have clean := (Parse.model_diagnostics_eq_nil_iff .entity limit ended).mpr (by rw [parsed])
  refine ⟨(Parse.ofTokens .entity limit tokens).model .entity, ?_, clean, ?_⟩
  · cases strict with
    | false => exact compile_plain lexed .entity limit
    | true => exact (compile_strict lexed .entity limit).trans (if_pos clean)
  · rw [parsed]
    rfl

/-- A written value is what the document has for an option with it, whatever blanks stand behind the
option, and nothing is reported. -/
theorem compile_written {v : Value} (written : v.Written) {gap : String}
    (blank : ∀ c ∈ gap.toList, Text.isBlank c = true) (options : CompileOptions) :
    ∃ m, compile .entity options
        ("@o(" ++ String.ofList v.source ++ ")" ++ gap ++ "entity E \x7b\x7d") = .ok m ∧
      m.diagnostics = [] ∧ m.document.lookup? "entities.E.options.o" = some v := by
  obtain ⟨ts, us, p, known, knownMore, lexed⟩ := Token.lex_written written blank
  obtain ⟨n, entity, d, stands, option, accepts⟩ :=
    Grammar.accepts_written (p := p) written known knownMore
  obtain ⟨m, compiled, clean, document⟩ := compile_of_accepts lexed accepts options
  refine ⟨m, compiled, clean, ?_⟩
  rw [document, ← stands]
  exact Model.lookup?_option option _ _

/-- A mapping with a quote in a key, an integer beyond 64 bits, a scale that shows and empty parts,
compiled strictly. -/
theorem compile_written_nested :
    ∃ m, compile .entity ⟨true, 0⟩
        ("@o(" ++ String.ofList (Value.source (.mapping [
            ("a\"b", .integer (-1180591620717411303424)),
            ("a", .sequence [.decimal ⟨-50, 2⟩, .sequence [], .mapping [], .boolean true])])) ++
          ")" ++ "\n" ++ "entity E \x7b\x7d") = .ok m ∧
      m.diagnostics = [] ∧ m.document.lookup? "entities.E.options.o" =
        some (.mapping [("a\"b", .integer (-1180591620717411303424)),
          ("a", .sequence [.decimal ⟨-50, 2⟩, .sequence [], .mapping [], .boolean true])]) := by
  refine compile_written ?_ (List.all_eq_true.mp (by decide)) ⟨true, 0⟩
  have plain : ∀ s ∈ ["a\"b", "a"], Value.Plain s := by decide +kernel
  refine .mapping (by simpa using plain) (by decide) ?_
  simp only [List.forall_mem_cons, List.not_mem_nil, false_implies, implies_true, and_true]
  refine ⟨.integer, .sequence ?_⟩
  simp only [List.forall_mem_cons, List.not_mem_nil, false_implies, implies_true, and_true]
  exact ⟨.decimal (by decide) (by decide), .sequence (by simp),
    .mapping (by simp) (by simp) (by simp), .boolean⟩

end EntityFlow
