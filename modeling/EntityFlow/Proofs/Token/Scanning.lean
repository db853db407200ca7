import Mathlib.Data.List.TakeWhile
import EntityFlow.Proofs.Token.Lexicon

/-!
# The scanner follows the lexical grammar

* **soundness** — whatever the scanner answers, the grammar has a rule for it (`Lexer.scan_sound`);
* **completeness** — where a rule of the grammar applies, the scanner answers with it
  (`Lexer.scan_of_skipped`, `Lexer.scan_of_matches`, `Lexer.scan_of_unended`), so at most one rule
  does (`Lexer.Matches.unique`).

The lexer goes on with what stands behind: three equations, one for each form of the grammar, say
what the tokens of a text are (`Lexer.tokens_of_skipped`, `Lexer.tokens_of_matches`,
`Lexer.tokens_of_unended`), and what they preserve holds of whole texts
(`Lexer.reading_induction`).
-/

namespace EntityFlow

namespace Lexer

/-! ## Block comments -/

section Comments

variable {body rest : List Char}

/-- The text of a block comment ends with its first end mark. -/
theorem first_of_splitComment {cs text rest : List Char}
    (split : splitComment cs = some (text, rest)) :
    ∃ body, text = body ++ ['*', '/'] ∧ ¬ ['*', '/'] <:+: body ++ ['*'] := by
  fun_induction splitComment cs generalizing text rest with
  | case1 => cases split
  | case2 tail =>
      cases split
      exact ⟨[], rfl, by decide⟩
  | case3 c tail other ih =>
      obtain ⟨⟨inner, later⟩, found, equal⟩ := Option.map_eq_some_iff.mp split
      cases equal
      have whole := splitComment_append found
      obtain ⟨body, rfl, first⟩ := ih found
      refine ⟨c :: body, rfl, ?_⟩
      intro early
      rcases List.infix_cons_iff.mp early with front | later
      · -- an end mark at the front would have been found before
        obtain ⟨star, slash⟩ := List.cons_prefix_cons.mp front
        cases body with
        | nil => simp at slash
        | cons d body =>
            obtain ⟨rfl, -⟩ := List.cons_prefix_cons.mp slash
            rw [List.cons_append, List.cons_append] at whole
            exact other _ star.symm whole.symm
      · exact first later

/-- A comment up to its first end mark is documentation if its body starts with a star. -/
theorem startsJavadoc_of_first (first : ¬ ['*', '/'] <:+: body ++ ['*']) :
    startsJavadoc ('*' :: (body ++ '*' :: '/' :: rest)) = (body.head? == some '*') := by
  match body with
  | [] => rfl
  | [d] =>
      by_cases star : d = '*'
      · subst star
        rfl
      · simp [startsJavadoc, star]
  | d :: e :: tail =>
      by_cases star : d = '*'
      · subst star
        -- a slash behind the star would be an end mark before the last one
        have other : e ≠ '/' := by
          rintro rfl
          exact first ⟨[], tail ++ ['*'], rfl⟩
        simp [startsJavadoc, other]
      · simp [startsJavadoc, star]

/-- The search for an end mark passes over a body without one. -/
theorem splitComment_of_first (first : ¬ ['*', '/'] <:+: body ++ ['*']) :
    splitComment (body ++ '*' :: '/' :: rest) = some (body ++ ['*', '/'], rest) := by
  induction body with
  | nil => rfl
  | cons c body ih =>
      have later : ¬ ['*', '/'] <:+: body ++ ['*'] :=
        fun inside => first (List.infix_cons inside)
      rw [List.cons_append, splitComment, ih later]
      · rfl
      · -- an end mark at the front would be the first one
        rintro tail rfl equal
        cases body with
        | nil => cases equal
        | cons d body =>
            obtain ⟨rfl, -⟩ := List.cons.inj equal
            exact first ⟨[], body ++ ['*'], rfl⟩

theorem splitComment_eq_none_iff : splitComment body = none ↔ ¬ ['*', '/'] <:+: body := by
  constructor
  · intro none ⟨front, back, whole⟩
    fun_induction splitComment body generalizing front with
    | case1 => simp at whole
    | case2 => cases none
    | case3 c tail other ih =>
        cases front with
        | nil =>
            obtain ⟨rfl, rest⟩ := List.cons.inj whole
            exact other _ rfl rest.symm
        | cons d front =>
            obtain ⟨-, rest⟩ := List.cons.inj whole
            exact ih (Option.map_eq_none_iff.mp none) front rest
  · intro none
    cases found : splitComment body with
    | none => rfl
    | some pair =>
        obtain ⟨inner, text, -⟩ := first_of_splitComment found
        refine absurd ⟨inner, pair.2, ?_⟩ none
        rw [← text, splitComment_append found]

end Comments

/-! ## Quoted texts -/

section Strings

variable {quote c : Char} {inside tail : List Char}

/-- What ends a search for the closing quote. -/
inductive Stop (quote : Char) : List Char → Prop
  | close {rest : List Char} : Stop quote (quote :: rest)
  | line {rest : List Char} : Stop quote ('\n' :: rest)
  | lone : Stop quote ['\\']
  | done : Stop quote []

/-- A character that is neither a backslash alone nor one in front of another character is none. -/
theorem ne_backslash {c : Char} {tail : List Char} (notLone : c = '\\' → ¬tail = [])
    (notEscape : ∀ d rest, c = '\\' → ¬tail = d :: rest) : c ≠ '\\' := by
  intro backslash
  cases tail with
  | nil => exact notLone backslash rfl
  | cons d rest => exact notEscape d rest backslash rfl

/-- Every text is an inside of a quoted text up to where the search for its end stops. -/
theorem exists_enclosed (quote : Char) (cs : List Char) :
    ∃ inside rest, cs = inside ++ rest ∧ Enclosed quote inside ∧ Stop quote rest := by
  fun_induction splitString quote cs with
  | case1 => exact ⟨[], [], rfl, .nil, .done⟩
  | case2 rest => exact ⟨[], '\n' :: rest, rfl, .nil, .line⟩
  | case3 => exact ⟨[], ['\\'], rfl, .nil, .lone⟩
  | case4 c tail ih =>
      obtain ⟨inside, rest, rfl, enclosed, stop⟩ := ih
      exact ⟨'\\' :: c :: inside, rest, rfl, .pair enclosed, stop⟩
  | case5 tail => exact ⟨[], quote :: tail, rfl, .nil, .close⟩
  | case6 c tail notLine notLone notEscape other ih =>
      obtain ⟨inside, rest, rfl, enclosed, stop⟩ := ih
      have proper := ne_backslash notLone notEscape
      exact ⟨c :: inside, rest, rfl, .plain proper other notLine enclosed, stop⟩

theorem splitString_plain (proper : c ≠ '\\') (line : c ≠ '\n') :
    splitString quote (c :: tail) =
      if c = quote then .ok ([c], tail)
      else (splitString quote tail).map fun (text, more) => (c :: text, more) := by
  rw [splitString]
  · exact fun isLine => absurd isLine line
  · exact fun backslash => absurd backslash proper
  · exact fun _ _ backslash => absurd backslash proper

/-- The search for the closing quote passes over an inside. -/
theorem splitString_enclosed (enclosed : Enclosed quote inside) (rest : List Char) :
    splitString quote (inside ++ rest) =
      (splitString quote rest).map fun (text, more) => (inside ++ text, more) := by
  induction enclosed with
  | nil =>
      rw [List.nil_append]
      cases splitString quote rest <;> rfl
  | plain proper other line _ ih =>
      rw [List.cons_append, splitString_plain proper line, if_neg other, ih]
      cases splitString quote rest <;> rfl
  | pair _ ih =>
      rw [List.cons_append, List.cons_append, splitString, ih]
      cases splitString quote rest <;> rfl

end Strings

/-! ## What the scanner answers has a rule -/

section Soundness

variable {c : Char} {body tail : List Char}

/-- A line comment takes the rest of its line. -/
theorem comment_of_line (body : List Char) :
    Comment ('/' :: '/' :: body.takeWhile (· != '\n')) (body.dropWhile (· != '\n')) := by
  apply Comment.line
  · intro member
    simpa using List.mem_takeWhile_imp member
  · intro d member
    have head := List.head?_dropWhile_not (· != '\n') body
    rw [Option.mem_def.mp member] at head
    simpa using head

/-- The rule behind what stands at the front of a text. -/
def Scan.Sound (cs : List Char) : Scan → Prop
  | .blank text rest => Skipped text rest
  | .token kind text rest => Matches kind text rest
  | .fault cause => Unended cause cs

theorem scanComment_sound (body : List Char) :
    (scanComment (startsJavadoc ('*' :: body)) body).Sound ('/' :: '*' :: body) := by
  unfold scanComment
  split
  · rename_i none
    exact .comment (splitComment_eq_none_iff.mp none)
  · rename_i found
    have whole := splitComment_append found
    obtain ⟨inner, rfl, first⟩ := first_of_splitComment found
    rw [List.append_assoc] at whole
    rw [← whole, List.cons_append, List.cons_append, List.nil_append, startsJavadoc_of_first first]
    split
    · rename_i documents
      exact .javadoc (beq_iff_eq.mp documents) first
    · rename_i plain
      exact .comment (.block (fun star => plain (beq_iff_eq.mpr star)) first)

theorem quote?_scanString {quote : Char} (isQuote : quote = '"' ∨ quote = '\'') :
    (if quote = '"' then Token.Kind.doubleQuoted else .singleQuoted).quote? = some quote := by
  rcases isQuote with rfl | rfl <;> rfl

theorem scanString_sound {quote : Char} (isQuote : quote = '"' ∨ quote = '\'') (body : List Char) :
    (scanString quote body).Sound (quote :: body) := by
  obtain ⟨inside, rest, rfl, enclosed, stop⟩ := exists_enclosed quote body
  unfold scanString
  rw [splitString_enclosed enclosed]
  cases stop with
  | close =>
      have proper : quote ≠ '\\' ∧ quote ≠ '\n' := by rcases isQuote with rfl | rfl <;> decide
      rw [splitString_plain proper.1 proper.2, if_pos rfl]
      exact .quoted (quote?_scanString isQuote) enclosed
  | line => exact .line isQuote enclosed
  | lone => exact .escape isQuote enclosed
  | done =>
      rw [List.append_nil]
      exact .stop isQuote enclosed

/-- Where a search through characters of a class ends, one stands that is not in it. -/
theorem dropWhile_stops {p : Char → Bool} {cs : List Char} :
    ∀ d ∈ (cs.dropWhile p).head?, p d = false := by
  intro d head
  have stops := List.head?_dropWhile_not p cs
  rwa [Option.mem_def.mp head] at stops

theorem scanNumber_sound (lead : c.isDigit = true ∨ c = '-' ∧ body.head?.any Char.isDigit = true) :
    (scanNumber c body).Sound (c :: body) := by
  have digits (cs : List Char) : ∀ d ∈ cs.takeWhile Char.isDigit, d.isDigit = true :=
    fun _ member => List.mem_takeWhile_imp member
  have whole : Whole c (body.takeWhile Char.isDigit) := by
    refine ⟨lead.imp_right fun minus => ⟨minus.1, ?_⟩, digits body⟩
    cases body with
    | nil => cases minus.2
    | cons d body => simp [show d.isDigit = true from minus.2]
  have stops : ∀ d ∈ (body.dropWhile Char.isDigit).head?, d.isDigit = false := dropWhile_stops
  unfold scanNumber
  dsimp only
  split
  · rename_i d rest left
    split
    · rename_i digit
      refine .number whole ?_ (digits _) dropWhile_stops
      simp [digit]
    · rename_i other
      rw [left] at stops
      refine .int whole stops fun e more equal => ?_
      cases equal
      exact Bool.eq_false_iff.mpr other
  · rename_i rest noFraction
    refine .int whole stops fun d more equal => ?_
    exact absurd equal (noFraction d more)

end Soundness

/-! ## The branches of the scanner -/

section Branches

variable {c : Char} {body rest : List Char}

theorem scan_comment (body : List Char) :
    scan '/' ('*' :: body) = scanComment (startsJavadoc ('*' :: body)) body := by
  simp [scan]

theorem scan_quote {quote : Char} (isQuote : quote = '"' ∨ quote = '\'') :
    scan quote rest = scanString quote rest := by
  have other : quote ≠ '/' ∧ Text.isBlank quote = false := by
    rcases isQuote with rfl | rfl <;> decide
  simp [scan, other, isQuote]

/-- A text that starts as a number is scanned as one. -/
theorem scan_number (starts : startsNumber c rest = true) : scan c rest = scanNumber c rest := by
  have other : c ≠ '/' ∧ Text.isBlank c = false ∧ c ≠ '"' ∧ c ≠ '\'' := by
    rcases Bool.or_eq_true_iff.mp starts with digit | minus
    · have ne {d : Char} (no : d.isDigit = false) : c ≠ d :=
        ne_of_apply_ne Char.isDigit (by rw [digit, no]; decide)
      exact ⟨ne (by decide), isBlank_of_isDigit digit, ne (by decide), ne (by decide)⟩
    · rw [beq_iff_eq.mp (Bool.and_eq_true_iff.mp minus).1]
      decide
  obtain ⟨slash, blank, double, single⟩ := other
  simp [scan, starts, slash, blank, double, single]

theorem scan_letter (starts : startsWord c = true) :
    scan c rest =
      .token .word (c :: rest.takeWhile continuesWord) (rest.dropWhile continuesWord) := by
  have slash : c ≠ '/' := ne_of_startsWord starts (by decide)
  have double : c ≠ '"' := ne_of_startsWord starts (by decide)
  have single : c ≠ '\'' := ne_of_startsWord starts (by decide)
  have minus : c ≠ '-' := ne_of_startsWord starts (by decide)
  simp [scan, startsNumber, slash, isBlank_of_startsWord starts, double, single,
    isDigit_of_startsWord starts, minus, starts]

theorem scan_alone (alone : Alone c rest) :
    scan c rest = .token (Token.Kind.ofChar c) [c] rest := by
  have noLine : ¬ (c = '/' ∧ rest.head? = some '/') :=
    fun ⟨isSlash, next⟩ => (alone.slash isSlash '/' next).1 rfl
  have noBlock : ¬ (c = '/' ∧ rest.head? = some '*') :=
    fun ⟨isSlash, next⟩ => (alone.slash isSlash '*' next).2 rfl
  have noNumber := startsNumber_eq_false_iff.mpr ⟨alone.digit, alone.minus⟩
  simp [scan, noLine, noBlock, alone.visible, alone.quote, noNumber, alone.letter]

end Branches

/-- A character that is alone is punctuation or unknown. -/
theorem matches_of_alone {c : Char} {rest : List Char} (alone : Alone c rest) :
    Matches (Token.Kind.ofChar c) [c] rest := by
  rcases symbol_ofChar c with unknown | symbol
  · rw [unknown]
    refine .unknown alone fun kind symbol => ?_
    rw [← ofChar_of_symbol symbol, unknown] at symbol
    simp [Token.Kind.symbol] at symbol
  · exact .symbol symbol

/-- Whatever the scanner answers, the grammar has a rule for it. -/
theorem scan_sound (c : Char) (rest : List Char) : (scan c rest).Sound (c :: rest) := by
  unfold scan
  split
  · rename_i opened
    obtain ⟨rfl, slash⟩ := opened
    obtain ⟨body, rfl⟩ := List.head?_eq_some_iff.mp slash
    rw [List.takeWhile_cons_of_pos (by decide), List.dropWhile_cons_of_pos (by decide)]
    exact .comment (comment_of_line body)
  rename_i noLine
  split
  · rename_i opened
    obtain ⟨rfl, star⟩ := opened
    obtain ⟨body, rfl⟩ := List.head?_eq_some_iff.mp star
    exact scanComment_sound body
  rename_i noBlock
  split
  · rename_i blank
    exact .blank blank
  rename_i visible
  split
  · rename_i isQuote
    exact scanString_sound isQuote rest
  rename_i noQuote
  split
  · rename_i starts
    apply scanNumber_sound
    simpa [startsNumber] using starts
  rename_i noNumber
  split
  · rename_i starts
    exact .word starts (fun _ member => List.mem_takeWhile_imp member) dropWhile_stops
  · rename_i noLetter
    obtain ⟨digit, minus⟩ := startsNumber_eq_false_iff.mp (Bool.eq_false_iff.mpr noNumber)
    refine matches_of_alone ⟨Bool.eq_false_iff.mpr visible, Bool.eq_false_iff.mpr noLetter, digit,
      minus, not_or.mp noQuote, fun isSlash d head => ⟨?_, ?_⟩⟩
    · rintro rfl
      exact noLine ⟨isSlash, head⟩
    · rintro rfl
      exact noBlock ⟨isSlash, head⟩

/-! ## Where a rule applies, the scanner answers with it -/

section Completeness

variable {kind : Token.Kind} {cause : LexicalCause} {c : Char} {tail text rest : List Char}

/-- A class of characters is searched up to the first character that is not in it. -/
theorem takeWhile_of_ends {p : Char → Bool} {cs : List Char} (all : ∀ c ∈ cs, p c = true)
    (ends : ∀ c ∈ rest.head?, p c = false) :
    (cs ++ rest).takeWhile p = cs ∧ (cs ++ rest).dropWhile p = rest := by
  rw [List.takeWhile_append_of_pos all, List.dropWhile_append_of_pos all]
  cases rest with
  | nil => simp
  | cons d more =>
      have stops : p d = false := ends d rfl
      simp [stops]

theorem scan_of_skipped (skipped : Skipped (c :: tail) rest) :
    scan c (tail ++ rest) = .blank (c :: tail) rest := by
  cases skipped with
  | blank blank =>
      have slash : c ≠ '/' := ne_of_apply_ne Text.isBlank (by rw [blank]; decide)
      simp [scan, slash, blank]
  | comment comment =>
      cases comment with
      | @line body _ one stops =>
          have inside : ∀ d ∈ body, (d != '\n') = true := fun d member =>
            bne_iff_ne.mpr fun isLine => one (isLine ▸ member)
          have ends : ∀ d ∈ rest.head?, (d != '\n') = false := fun d head => by
            rw [stops d head]
            rfl
          obtain ⟨taken, left⟩ := takeWhile_of_ends inside ends
          simp [scan, taken, left]
      | @block body _ plain first =>
          have noDoc : startsJavadoc ('*' :: (body ++ '*' :: '/' :: rest)) = false := by
            rw [startsJavadoc_of_first first]
            simpa using plain
          rw [List.cons_append, List.append_assoc, List.cons_append, List.cons_append,
            List.nil_append, scan_comment, noDoc, scanComment, splitComment_of_first first]
          rfl

theorem Whole.startsNumber (whole : Whole c tail) (rest : List Char) :
    startsNumber c (tail ++ rest) = true := by
  rcases whole.lead with digit | ⟨rfl, some⟩
  · simp [Lexer.startsNumber, digit]
  · obtain ⟨d, tail, rfl⟩ := List.exists_cons_of_ne_nil some
    have digit := whole.digits d List.mem_cons_self
    simp [Lexer.startsNumber, digit]

theorem scan_int (whole : Whole c tail) (stops : ∀ d ∈ rest.head?, d.isDigit = false)
    (point : ∀ d more, rest = '.' :: d :: more → d.isDigit = false) :
    scan c (tail ++ rest) = .token .int (c :: tail) rest := by
  obtain ⟨taken, left⟩ := takeWhile_of_ends whole.digits stops
  rw [scan_number (whole.startsNumber rest), scanNumber, taken, left]
  split
  · rename_i d more
    rw [if_neg (Bool.eq_false_iff.mp (point d more rfl))]
  · rfl

theorem scan_fraction {fraction : List Char} (whole : Whole c tail) (some : fraction ≠ [])
    (digits : ∀ d ∈ fraction, d.isDigit = true) (stops : ∀ d ∈ rest.head?, d.isDigit = false) :
    scan c (tail ++ '.' :: fraction ++ rest) =
      .token .number (c :: (tail ++ '.' :: fraction)) rest := by
  obtain ⟨d, more, rfl⟩ := List.exists_cons_of_ne_nil some
  have pointStops : ∀ e ∈ ('.' :: (d :: more ++ rest)).head?, e.isDigit = false := by
    rintro e ⟨⟩
    rfl
  obtain ⟨taken, left⟩ := takeWhile_of_ends whole.digits pointStops
  obtain ⟨takenMore, leftMore⟩ := takeWhile_of_ends digits stops
  rw [List.append_assoc, List.cons_append, scan_number (whole.startsNumber _), scanNumber, taken,
    left]
  rw [List.cons_append] at takenMore leftMore
  simp only [List.cons_append, takenMore, leftMore]
  rw [if_pos (digits d List.mem_cons_self)]

theorem isQuote_of_quote? {quote : Char} (quoted : kind.quote? = some quote) :
    quote = '"' ∨ quote = '\'' := by
  cases kind <;> cases quoted
  · exact .inr rfl
  · exact .inl rfl

theorem scan_quoted {quote : Char} {inside : List Char} (quoted : kind.quote? = some quote)
    (enclosed : Enclosed quote inside) (rest : List Char) :
    scan quote (inside ++ [quote] ++ rest) = .token kind (quote :: (inside ++ [quote])) rest := by
  have isQuote := isQuote_of_quote? quoted
  have proper : quote ≠ '\\' ∧ quote ≠ '\n' := by rcases isQuote with rfl | rfl <;> decide
  have isKind : (if quote = '"' then Token.Kind.doubleQuoted else .singleQuoted) = kind := by
    cases kind <;> cases quoted <;> rfl
  rw [scan_quote isQuote, scanString, List.append_assoc, List.singleton_append,
    splitString_enclosed enclosed, splitString_plain proper.1 proper.2, if_pos rfl]
  show Scan.token _ _ _ = _
  rw [isKind]

theorem scan_of_matches (found : Matches kind (c :: tail) rest) :
    scan c (tail ++ rest) = .token kind (c :: tail) rest := by
  cases found with
  | word starts continued stops =>
      obtain ⟨taken, left⟩ := takeWhile_of_ends continued stops
      rw [scan_letter starts, taken, left]
  | int whole stops point => exact scan_int whole stops point
  | number whole some digits stops => exact scan_fraction whole some digits stops
  | quoted quoted enclosed => exact scan_quoted quoted enclosed rest
  | @javadoc body _ documents first =>
      have doc : startsJavadoc ('*' :: (body ++ '*' :: '/' :: rest)) = true := by
        rw [startsJavadoc_of_first first]
        simpa using documents
      rw [List.cons_append, List.append_assoc, List.cons_append, List.cons_append,
        List.nil_append, scan_comment, doc, scanComment, splitComment_of_first first]
      rfl
  | symbol symbol =>
      rw [List.nil_append, scan_alone (alone_of_symbol symbol rest), ofChar_of_symbol symbol]
  | unknown alone other =>
      rw [List.nil_append, scan_alone alone]
      rw [(symbol_ofChar c).resolve_right (other _)]

theorem scan_of_unended (unended : Unended cause (c :: rest)) : scan c rest = .fault cause := by
  cases unended with
  | comment none => rw [scan_comment, scanComment, splitComment_eq_none_iff.mpr none]
  | line isQuote enclosed =>
      rw [scan_quote isQuote, scanString, splitString_enclosed enclosed]
      rfl
  | stop isQuote enclosed =>
      have none := splitString_enclosed enclosed []
      rw [List.append_nil] at none
      rw [scan_quote isQuote, scanString, none]
      rfl
  | escape isQuote enclosed =>
      rw [scan_quote isQuote, scanString, splitString_enclosed enclosed]
      rfl

end Completeness

/-! ## Whole texts -/

section Texts

variable {p : Position} {kind : Token.Kind} {cause : LexicalCause} {c : Char}
  {text rest more : List Char}

theorem tokens_nil : tokens p [] = .ok [⟨.eof, "", Span.between p p⟩] := by
  rw [tokens]

theorem tokens_blank (front : scan c rest = .blank text more) :
    tokens p (c :: rest) = tokens (p.after text) more := by
  rw [tokens]
  split
  · rename_i front'
    cases front.symm.trans front'
    rfl
  · rename_i front'
    cases front.symm.trans front'
  · rename_i front'
    cases front.symm.trans front'

theorem tokens_token {kind : Token.Kind} (front : scan c rest = .token kind text more) :
    tokens p (c :: rest) =
      (tokens (p.after text) more).map
        (⟨kind, String.ofList text, Span.between p (p.after text)⟩ :: ·) := by
  rw [tokens]
  split
  · rename_i front'
    cases front.symm.trans front'
  · rename_i front'
    cases front.symm.trans front'
    rfl
  · rename_i front'
    cases front.symm.trans front'

theorem tokens_fault {cause : LexicalCause} (front : scan c rest = .fault cause) :
    tokens p (c :: rest) = .error ⟨cause, p⟩ := by
  rw [tokens]
  split
  · rename_i front'
    cases front.symm.trans front'
  · rename_i front'
    cases front.symm.trans front'
  · rename_i front'
    cases front.symm.trans front'
    rfl

/-- The tokens of a text that starts with a token. -/
theorem of_tokens_token {kind : Token.Kind} {ts : List Token}
    (lexed : (tokens (p.after text) more).map
      (⟨kind, String.ofList text, Span.between p (p.after text)⟩ :: ·) = .ok ts) :
    ∃ later, tokens (p.after text) more = .ok later ∧
      ts = ⟨kind, String.ofList text, Span.between p (p.after text)⟩ :: later := by
  cases tail : tokens (p.after text) more with
  | error fault =>
      rw [tail] at lexed
      cases lexed
  | ok later =>
      rw [tail] at lexed
      cases lexed
      exact ⟨later, rfl, rfl⟩

/-- A text that starts with a token fails where the rest does. -/
theorem error_of_tokens_token {q : Position} {t : Token} {fault : LexicalFault}
    (failed : (tokens q more).map (t :: ·) = .error fault) : tokens q more = .error fault := by
  cases tail : tokens q more with
  | error first =>
      rw [tail] at failed
      cases failed
      rfl
  | ok later =>
      rw [tail] at failed
      cases failed

theorem Skipped.ne_nil (skipped : Skipped text rest) : text ≠ [] := by
  cases skipped with
  | blank => exact List.cons_ne_nil _ _
  | comment comment => cases comment <;> exact List.cons_ne_nil _ _

theorem Matches.ne_nil (found : Matches kind text rest) (proper : kind ≠ .eof) : text ≠ [] := by
  cases found with
  | eof => exact absurd rfl proper
  | _ => exact List.cons_ne_nil _ _

theorem Unended.ne_nil (unended : Unended cause text) : text ≠ [] := by
  cases unended <;> exact List.cons_ne_nil _ _

theorem tokens_of_skipped (skipped : Skipped text rest) :
    tokens p (text ++ rest) = tokens (p.after text) rest := by
  obtain ⟨c, tail, rfl⟩ := List.exists_cons_of_ne_nil skipped.ne_nil
  exact tokens_blank (scan_of_skipped skipped)

theorem tokens_of_unended (unended : Unended cause text) :
    tokens p text = .error ⟨cause, p⟩ := by
  obtain ⟨c, tail, rfl⟩ := List.exists_cons_of_ne_nil unended.ne_nil
  exact tokens_fault (scan_of_unended unended)

theorem tokens_of_matches (found : Matches kind text rest) (proper : kind ≠ .eof) :
    tokens p (text ++ rest) = (tokens (p.after text) rest).map
      (⟨kind, String.ofList text, Span.between p (p.after text)⟩ :: ·) := by
  obtain ⟨c, tail, rfl⟩ := List.exists_cons_of_ne_nil (found.ne_nil proper)
  exact tokens_token (scan_of_matches found)

/-- Induction along a text as it is read: over what is skipped and what is a token, up to the end or
to where something starts that has none. -/
@[elab_as_elim]
theorem reading_induction {motive : Position → List Char → Prop} (done : ∀ p, motive p [])
    (skip : ∀ p text rest, Skipped text rest → motive (p.after text) rest →
      motive p (text ++ rest))
    (token : ∀ p kind text rest, Matches kind text rest → kind ≠ .eof →
      motive (p.after text) rest → motive p (text ++ rest))
    (fault : ∀ p cause cs, Unended cause cs → motive p cs) (p : Position) (cs : List Char) :
    motive p cs := by
  induction p, cs using tokens.induct with
  | case1 p => exact done p
  | case2 p c rest text more front ih =>
      have splits := scan_splits c rest
      have sound := scan_sound c rest
      rw [front] at splits sound
      rw [← splits.1]
      exact skip p text more sound ih
  | case3 p c rest kind text more front ih =>
      have splits := scan_splits c rest
      have sound := scan_sound c rest
      rw [front] at splits sound
      rw [← splits.1]
      exact token p kind text more sound (scan_kind front) ih
  | case4 p c rest cause front =>
      have sound := scan_sound c rest
      rw [front] at sound
      exact fault p cause (c :: rest) sound

theorem Matches.of_eof (found : Matches .eof text rest) : text ++ rest = [] := by
  cases found with
  | quoted quoted => cases quoted
  | symbol symbol => simp [Token.Kind.symbol] at symbol
  | eof => rfl

/-- At most one text at the front of a text matches, and that as one kind only. -/
theorem Matches.unique {other : Token.Kind} {text' rest' : List Char}
    (found : Matches kind text rest) (found' : Matches other text' rest')
    (same : text' ++ rest' = text ++ rest) : other = kind ∧ text' = text := by
  by_cases proper : kind = .eof
  · subst proper
    have empty := found.of_eof
    rw [empty] at same
    obtain ⟨rfl, -⟩ := List.append_eq_nil_iff.mp same
    obtain ⟨rfl, -⟩ := List.append_eq_nil_iff.mp empty
    exact ⟨by_contra fun properOther => found'.ne_nil properOther rfl, rfl⟩
  · have properOther : other ≠ .eof := by
      rintro rfl
      rw [found'.of_eof] at same
      exact found.ne_nil proper (List.append_eq_nil_iff.mp same.symm).1
    obtain ⟨c, tail, rfl⟩ := List.exists_cons_of_ne_nil (found.ne_nil proper)
    obtain ⟨d, tail', rfl⟩ := List.exists_cons_of_ne_nil (found'.ne_nil properOther)
    rw [List.cons_append, List.cons_append] at same
    obtain ⟨rfl, sameTail⟩ := List.cons.inj same
    have scanned := scan_of_matches found'
    rw [sameTail, scan_of_matches found] at scanned
    cases scanned
    exact ⟨rfl, rfl⟩

end Texts

end Lexer

end EntityFlow
