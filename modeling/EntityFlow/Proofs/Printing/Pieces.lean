import EntityFlow.Proofs.Token.Lines
import EntityFlow.Proofs.Token.Literals
import EntityFlow.Proofs.Token.Spelling
import Mathlib.Data.List.Chain

/-!
# Printed text

A printer writes a list of pieces: lexemes, each with the blanks in front of it. Where every piece is
set apart from the one after it (`Piece.Parted`), the lexer finds exactly the printed lexemes, each
at the place at which it was printed (`Piece.tokens_source`).
-/

namespace EntityFlow

/-! ## Lexemes -/

/-- The words of both languages, keywords included. -/
def Lexer.spellsWord : List Char → Bool
  | [] => false
  | c :: cs => startsWord c && cs.all continuesWord

/-- A word. -/
structure Identifier where
  text : String
  spelled : Lexer.spellsWord text.toList = true
deriving DecidableEq

/-- Any digits, none included. -/
structure Digits where
  text : String
  digits : text.toList.all Char.isDigit = true
deriving DecidableEq

/-- A text without line ends and backslashes. -/
structure PlainText where
  text : String
  plain : Value.Plain text
deriving DecidableEq

/-- What a printer writes between blanks. -/
inductive Lexeme
  | word (w : Identifier)
  | digits (n : Digits) (some : n.text ≠ "")
  | quoted (s : PlainText)
  | symbol (k : Token.Kind) (known : k.symbol ≠ "")
deriving DecidableEq

namespace Lexeme

/-- The kind of token that a lexeme is. -/
def kind : Lexeme → Token.Kind
  | word _ => .word
  | digits _ _ => .int
  | quoted _ => .doubleQuoted
  | symbol k _ => k

/-- The text of a lexeme. -/
def text : Lexeme → String
  | word w => w.text
  | digits n _ => n.text
  | quoted s => String.ofList (Text.quoted '"' s.text.toList)
  | symbol k _ => k.symbol

/-- Whether a lexeme ends in front of a character. -/
def endsAt : Lexeme → Char → Bool
  | word _, c => !Lexer.continuesWord c
  | digits _ _, c => !c.isDigit && c != '.'
  | quoted _, _ => true
  | symbol _ _, _ => true

theorem endsAt_blank (x : Lexeme) : x.endsAt '\n' = true ∧ x.endsAt ' ' = true := by
  have word : Lexer.continuesWord '\n' = false ∧ Lexer.continuesWord ' ' = false := by decide
  cases x <;> simp [endsAt, word]

end Lexeme

theorem Identifier.continued (w : Identifier) :
    ∀ c ∈ w.text.toList, Lexer.continuesWord c = true := by
  have spelled := w.spelled
  cases written : w.text.toList with
  | nil => simp
  | cons c cs =>
      rw [written] at spelled
      obtain ⟨starts, others⟩ := Bool.and_eq_true_iff.mp spelled
      exact List.forall_mem_cons.mpr
        ⟨Lexer.continuesWord_of_startsWord starts, List.all_eq_true.mp others⟩

theorem Text.newline_not_mem_escape {quote : Char} {cs : List Char} (other : '\n' ∉ cs) :
    '\n' ∉ Text.escape quote cs := by
  induction cs with
  | nil => exact List.not_mem_nil
  | cons c cs ih =>
      obtain ⟨first, later⟩ : '\n' ≠ c ∧ '\n' ∉ cs := by simpa using other
      unfold Text.escape
      split
      · simp [first, ih later]
      · simp [first, ih later]

/-! ## Scanning a lexeme -/

namespace Lexeme

variable {rest : List Char}

theorem matches_identifier (w : Identifier)
    (ends : ∀ c ∈ rest.head?, Lexer.continuesWord c = false) :
    Lexer.Matches .word w.text.toList rest := by
  have spelled := w.spelled
  cases written : w.text.toList with
  | nil =>
      rw [written] at spelled
      cases spelled
  | cons c tail =>
      rw [written] at spelled
      obtain ⟨starts, continued⟩ := Bool.and_eq_true_iff.mp spelled
      exact .word starts (List.all_eq_true.mp continued) ends

theorem matches_digits {n : Digits} (some : n.text ≠ "")
    (ends : ∀ c ∈ rest.head?, c.isDigit = false ∧ c ≠ '.') :
    Lexer.Matches .int n.text.toList rest := by
  have digits := List.all_eq_true.mp n.digits
  cases written : n.text.toList with
  | nil => exact absurd (String.toList_eq_nil_iff.mp written) some
  | cons c tail =>
      rw [written] at digits
      obtain ⟨first, others⟩ := List.forall_mem_cons.mp digits
      refine .int ⟨.inl first, others⟩ (fun d head => (ends d head).1) ?_
      rintro d more rfl
      exact absurd rfl (ends '.' rfl).2

/-- A lexeme is found as the token that it is. -/
theorem found (x : Lexeme) (rest : List Char) (ends : ∀ c ∈ rest.head?, x.endsAt c = true) :
    Lexer.Matches x.kind x.text.toList rest := by
  cases x with
  | word w => exact matches_identifier w fun c head => by simpa [endsAt] using ends c head
  | digits n some => exact matches_digits some fun c head => by simpa [endsAt] using ends c head
  | quoted s =>
      rw [text, String.toList_ofList]
      exact Lexer.matches_quoted s.plain
  | symbol k known =>
      obtain ⟨c, written, -⟩ := Lexer.exists_punctuation known
      have symbol : k.symbol = String.singleton c :=
        String.toList_inj.mp (by rw [written, String.toList_singleton])
      rw [text, written]
      exact .symbol symbol

theorem kind_ne_eof (x : Lexeme) : x.kind ≠ .eof := by
  cases x with
  | word | digits | quoted => exact fun equal => nomatch equal
  | symbol k known =>
      rintro rfl
      exact known rfl

theorem text_ne_nil (x : Lexeme) : x.text.toList ≠ [] :=
  (x.found [] (by simp)).ne_nil x.kind_ne_eof

theorem newline_not_mem_text (x : Lexeme) : '\n' ∉ x.text.toList := by
  intro member
  cases x with
  | word w => exact absurd (w.continued _ member) (by decide)
  | digits n => exact absurd (List.all_eq_true.mp n.digits _ member) (by decide)
  | quoted s =>
      rw [text, String.toList_ofList, Text.quoted] at member
      have inside : '\n' ∈ Text.escape '"' s.text.toList := by simpa using member
      exact Text.newline_not_mem_escape s.plain.1 inside
  | symbol k known =>
      have lines : ∀ k : Token.Kind, '\n' ∉ k.symbol.toList := by
        intro k
        cases k <;> decide
      exact lines k member

theorem kind_ne_javadoc (x : Lexeme) : x.kind ≠ .javadoc := by
  cases x with
  | word | digits | quoted => exact fun equal => nomatch equal
  | symbol k known =>
      rintro rfl
      exact known rfl

end Lexeme

/-! ## Pieces -/

/-- The blanks in front of a printed lexeme; a new line is indented by so many steps. -/
inductive Gap
  | none
  | space
  | line (depth : Nat)
deriving DecidableEq

/-- The characters of a gap. -/
def Gap.chars : Gap → List Char
  | none => []
  | space => [' ']
  | line depth => '\n' :: List.replicate (2 * depth) ' '

theorem Gap.isBlank_chars (gap : Gap) : ∀ c ∈ gap.chars, Text.isBlank c = true := by
  have blanks : Text.isBlank '\n' = true ∧ Text.isBlank ' ' = true := by decide
  cases gap with
  | none => simp [chars]
  | space => simp [chars, blanks]
  | line depth => simp [chars, blanks]

/-- Whether there is anything in a gap. -/
def Gap.some : Gap → Bool
  | none => false
  | space => true
  | line _ => true

/-- Whether a gap stays on its line. -/
def Gap.flat : Gap → Bool
  | none => true
  | space => true
  | line _ => false

theorem Gap.line_of_flat {gap : Gap} (flat : gap.flat = true) (p : Position) :
    (p.after gap.chars).line = p.line := by
  cases gap with
  | none => rfl
  | space => rfl
  | line => cases flat

theorem Gap.line_of_not_flat {gap : Gap} (broken : gap.flat = false) (p : Position) :
    (p.after gap.chars).line = p.line + 1 := by
  cases gap with
  | none => cases broken
  | space => cases broken
  | line depth =>
      have indent : '\n' ∉ List.replicate (2 * depth) ' ' := by simp
      show ((p.step '\n').after _).line = _
      rw [Lexer.line_after indent]
      rfl

/-- A printed lexeme and the blanks in front of it. -/
structure Piece where
  gap : Gap
  lexeme : Lexeme
deriving DecidableEq

namespace Piece

/-- A printed word. -/
def word (gap : Gap) (w : Identifier) : Piece := ⟨gap, .word w⟩

/-- A printed keyword. -/
def keyword (gap : Gap) (text : String)
    (spelled : Lexer.spellsWord text.toList = true := by decide) : Piece :=
  ⟨gap, .word ⟨text, spelled⟩⟩

/-- Printed punctuation. -/
def symbol (gap : Gap) (k : Token.Kind) (known : k.symbol ≠ "" := by decide) : Piece :=
  ⟨gap, .symbol k known⟩

/-- A printed text in quotes. -/
def quoted (gap : Gap) (s : PlainText) : Piece := ⟨gap, .quoted s⟩

/-- A printed block, its closing brace on a line of its own. -/
def block (depth : Nat) (items : List Piece) : List Piece :=
  symbol .space .lBrace :: (items ++ [symbol (.line depth) .rBrace])

/-- The printed characters of a piece. -/
def chars (x : Piece) : List Char := x.gap.chars ++ x.lexeme.text.toList

/-- The printed characters of some pieces. -/
def source (ps : List Piece) : List Char := ps.flatMap chars

/-- The texts of some pieces without the blanks. -/
def text (ps : List Piece) : String := String.join (ps.map (·.lexeme.text))

/-- The token of a piece that is printed at a position. -/
def token (p : Position) (x : Piece) : Token :=
  ⟨x.lexeme.kind, x.lexeme.text, Span.between (p.after x.gap.chars) (p.after x.chars)⟩

/-- The tokens of some pieces that are printed at a position. -/
def tokens (p : Position) : List Piece → List Token
  | [] => []
  | x :: ps => x.token p :: tokens (p.after x.chars) ps

@[simp] theorem source_nil : source [] = [] := rfl

@[simp] theorem source_cons (x : Piece) (ps : List Piece) :
    source (x :: ps) = x.chars ++ source ps := List.flatMap_cons

@[simp] theorem source_append (ps qs : List Piece) : source (ps ++ qs) = source ps ++ source qs :=
  List.flatMap_append

theorem tokens_append (p : Position) (ps qs : List Piece) :
    tokens p (ps ++ qs) = tokens p ps ++ tokens (p.after (source ps)) qs := by
  induction ps generalizing p with
  | nil => rfl
  | cons x ps ih =>
      rw [List.cons_append, tokens, ih, source_cons, Position.after_append]
      rfl

theorem chars_ne_nil (x : Piece) : x.chars ≠ [] := by
  simp [chars, x.lexeme.text_ne_nil]

theorem offset_after (x : Piece) (p : Position) : 0 < (p.after x.chars).offset := by
  have forward := p.offset_lt_after x.chars_ne_nil
  omega

/-- Pieces without line ends in front of them stay on their line. -/
theorem line_after_source {ps : List Piece} (flat : ∀ x ∈ ps, x.gap.flat = true) (p : Position) :
    (p.after (source ps)).line = p.line := by
  induction ps generalizing p with
  | nil => rfl
  | cons x ps ih =>
      obtain ⟨first, others⟩ := List.forall_mem_cons.mp flat
      rw [source_cons, chars, Position.after_append, Position.after_append, ih others,
        Lexer.line_after x.lexeme.newline_not_mem_text, Gap.line_of_flat first]

/-- That a piece ends where the next one starts. -/
def Parted (x y : Piece) : Prop := ∀ c ∈ y.chars.head?, x.lexeme.endsAt c = true

/-- A piece with blanks in front of it is parted from every other one. -/
theorem parted_of_gap (x : Piece) {y : Piece} (gap : y.gap.some = true) : x.Parted y := by
  obtain ⟨line, blank⟩ := x.lexeme.endsAt_blank
  obtain ⟨gap', y⟩ := y
  cases gap' with
  | none => cases gap
  | space => simp [Parted, chars, Gap.chars, blank]
  | line => simp [Parted, chars, Gap.chars, line]

theorem symbol_parted {gap : Gap} {k : Token.Kind} {known : k.symbol ≠ ""} (y : Piece) :
    (symbol gap k known).Parted y :=
  fun _ _ => rfl

/-- Every piece is parted from punctuation, a number not from a point. -/
theorem parted_symbol {x : Piece} {gap : Gap} {k : Token.Kind} {known : k.symbol ≠ ""}
    (other : (x.lexeme.kind != .int || k != .dot) = true) : x.Parted (symbol gap k known) := by
  by_cases spaced : gap.some = true
  · exact x.parted_of_gap spaced
  · obtain rfl : gap = .none := by
      cases gap with
      | none => rfl
      | space | line => exact absurd rfl spaced
    obtain ⟨d, written, kind, _, _, _, _, digit, _, _, word⟩ := Lexer.exists_punctuation known
    have chars : (symbol .none k known).chars = [d] := written
    intro c head
    rw [chars] at head
    cases head
    obtain ⟨gap', lexeme⟩ := x
    cases lexeme with
    | word w => simp [Lexeme.endsAt, word]
    | digits n some =>
        have noPoint : d ≠ '.' := by
          rintro rfl
          rw [← kind] at other
          cases other
        simp [Lexeme.endsAt, digit, noPoint]
    | quoted s => rfl
    | symbol k known => rfl

/-- That pieces can be printed in a row: each is parted from the next one. -/
abbrev Apart (ps : List Piece) : Prop := ps.IsChain Parted

/-- That pieces can be printed in a row behind any piece. -/
structure Tidy (ps : List Piece) : Prop where
  apart : Apart ps
  spaced : ∀ x ∈ ps.head?, x.gap.some = true

theorem Tidy.nil : Tidy [] := ⟨.nil, by simp⟩

theorem Tidy.apart_append {ps qs : List Piece} (tidy : Tidy qs) (apart : Apart ps) :
    Apart (ps ++ qs) :=
  apart.append tidy.apart fun x _ y head => x.parted_of_gap (tidy.spaced y head)

theorem Tidy.append {ps qs : List Piece} (one : Tidy ps) (two : Tidy qs) : Tidy (ps ++ qs) := by
  refine ⟨two.apart_append one.apart, ?_⟩
  cases ps with
  | nil => exact two.spaced
  | cons x ps => exact one.spaced

theorem Tidy.cons {x : Piece} {ps : List Piece} (gap : x.gap.some = true) (tidy : Tidy ps) :
    Tidy (x :: ps) := by
  have own : Tidy [x] := ⟨.singleton x, by simpa using gap⟩
  exact own.append tidy

theorem Tidy.block (depth : Nat) {items : List Piece} (tidy : Tidy items) :
    Tidy (block depth items) :=
  .cons rfl (tidy.append (.cons rfl .nil))

theorem Tidy.flatMap {α : Type} {xs : List α} {pieces : α → List Piece}
    (each : ∀ x ∈ xs, Tidy (pieces x)) : Tidy (xs.flatMap pieces) := by
  induction xs with
  | nil => exact .nil
  | cons x xs ih =>
      obtain ⟨first, others⟩ := List.forall_mem_cons.mp each
      rw [List.flatMap_cons]
      exact first.append (ih others)

end Piece

/-! ## Scanning pieces -/

namespace Lexer

theorem tokens_blanks {blanks : List Char} (blank : ∀ c ∈ blanks, Text.isBlank c = true)
    (p : Position) (rest : List Char) : tokens p (blanks ++ rest) = tokens (p.after blanks) rest := by
  have none : Lexes blanks [] rest := .blanks blank
  obtain ⟨ts, known, split⟩ := none p
  rw [split, List.map_eq_nil_iff.mp known]
  cases tokens (p.after blanks) rest <;> rfl

end Lexer

/-- Pieces that are apart, with blanks behind them, have their own tokens and the end token. -/
theorem Piece.tokens_source {ps : List Piece} (apart : Apart ps) {blanks : List Char}
    (blank : ∀ c ∈ blanks, c = '\n') (p : Position) :
    ∃ last : Token, last.kind = .eof ∧
      Lexer.tokens p (source ps ++ blanks) = .ok (tokens p ps ++ [last]) := by
  induction ps generalizing p with
  | nil =>
      refine ⟨⟨.eof, "", Span.between (p.after blanks) (p.after blanks)⟩, rfl, ?_⟩
      have line : Text.isBlank '\n' = true := by decide
      have skipped := Lexer.tokens_blanks (fun c member => blank c member ▸ line) p []
      rw [List.append_nil] at skipped
      rw [source_nil, List.nil_append, skipped, Lexer.tokens]
      rfl
  | cons x ps ih =>
      obtain ⟨last, atEnd, lexed⟩ := ih apart.of_cons (p.after x.chars)
      refine ⟨last, atEnd, ?_⟩
      -- the lexeme ends where the next piece or the blanks behind all pieces start
      have ends : ∀ c ∈ (source ps ++ blanks).head?, x.lexeme.endsAt c = true := by
        cases ps with
        | nil =>
            intro c head
            rw [blank c (List.mem_of_mem_head? head)]
            exact x.lexeme.endsAt_blank.1
        | cons y ps =>
            have parted : x.Parted y := (List.isChain_cons_cons.mp apart).1
            rw [source_cons, List.append_assoc, List.head?_append_of_ne_nil _ y.chars_ne_nil]
            exact parted
      rw [source_cons, chars, List.append_assoc, List.append_assoc,
        Lexer.tokens_blanks x.gap.isBlank_chars,
        Lexer.tokens_of_matches (x.lexeme.found _ ends) x.lexeme.kind_ne_eof,
        ← Position.after_append, ← chars, lexed, String.ofList_toList]
      rfl

/-- The tokens of a printed source. -/
theorem Token.lex_source {ps : List Piece} (apart : Piece.Apart ps) :
    ∃ last : Token, last.kind = .eof ∧
      Token.lex (String.ofList (Piece.source ps ++ ['\n'])) =
        .ok (Piece.tokens Position.origin ps ++ [last]) := by
  rw [Token.lex, String.toList_ofList]
  exact Piece.tokens_source apart (by simp) _

end EntityFlow
