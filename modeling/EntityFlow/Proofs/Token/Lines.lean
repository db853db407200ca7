import EntityFlow.Proofs.Token.Scanning

/-!
# Sources line by line

A line end outside of comments cuts a source in two: the tokens of the source are those of the text
in front of it and those of the text behind it (`Lexer.tokens_append_newline`). What is a token does
not depend on where a text stands, so the text behind has its tokens at every place, moved along
with it (`Lexer.tokens_moved`). The tokens of a text lie on its lines (`Lexer.tokens_between`).
-/

namespace EntityFlow

/-! ## Texts at another place -/

/-- The position so many bytes and lines further on. -/
def Position.moved (bytes lines : Nat) (p : Position) : Position :=
  ⟨p.offset + bytes, p.line + lines, p.column⟩

/-- The span so many bytes and lines further on. -/
def Span.moved (bytes lines : Nat) (s : Span) : Span :=
  ⟨s.start + bytes, s.stop + bytes, s.line + lines, s.column, s.endLine + lines, s.endColumn⟩

/-- The token so many bytes and lines further on. -/
def Token.moved (bytes lines : Nat) (t : Token) : Token :=
  ⟨t.kind, t.text, t.span.moved bytes lines⟩

section Moved

variable (bytes lines : Nat)

theorem Position.step_moved (p : Position) (c : Char) :
    (p.moved bytes lines).step c = (p.step c).moved bytes lines := by
  unfold Position.step Position.moved
  split
  · simp only [Position.mk.injEq, and_true]
    omega
  · simp only [Position.mk.injEq, and_true]
    omega

theorem Position.after_moved (p : Position) (text : List Char) :
    (p.moved bytes lines).after text = (p.after text).moved bytes lines := by
  induction text generalizing p with
  | nil => rfl
  | cons c text ih => rw [Position.after_cons, Position.after_cons, Position.step_moved, ih]

/-- A text has the same tokens at another place. -/
theorem Lexer.tokens_moved {p : Position} {cs : List Char} {ts : List Token}
    (lexed : Lexer.tokens p cs = .ok ts) :
    Lexer.tokens (p.moved bytes lines) cs = .ok (ts.map (Token.moved bytes lines)) := by
  induction p, cs using Lexer.reading_induction generalizing ts with
  | done p =>
      rw [Lexer.tokens_nil] at lexed ⊢
      cases lexed
      rfl
  | skip p text rest skipped ih =>
      rw [Lexer.tokens_of_skipped skipped] at lexed ⊢
      rw [Position.after_moved]
      exact ih lexed
  | token p kind text rest found proper ih =>
      rw [Lexer.tokens_of_matches found proper] at lexed ⊢
      obtain ⟨later, tail, rfl⟩ := Lexer.of_tokens_token lexed
      rw [Position.after_moved, ih tail]
      rfl
  | fault p cause cs unended =>
      rw [Lexer.tokens_of_unended unended] at lexed
      cases lexed

end Moved

/-! ## Texts in front of a line end -/

/-- The tokens of a text with a line end behind it are its own and those of the text behind. -/
theorem Lexer.tokens_append_newline {p : Position} {cs : List Char} {ts : List Token}
    (lexed : Lexer.tokens p cs = .ok ts) (ds : List Char) :
    Lexer.tokens p (cs ++ '\n' :: ds) =
      (Lexer.tokens (p.after (cs ++ ['\n'])) ds).map (ts.dropLast ++ ·) := by
  induction p, cs using Lexer.reading_induction generalizing ts with
  | done p =>
      rw [Lexer.tokens_nil] at lexed
      cases lexed
      have blank : Lexer.scan '\n' ds = .blank ['\n'] ds := rfl
      rw [List.nil_append, Lexer.tokens_blank blank]
      show _ = Except.map ([] ++ ·) (Lexer.tokens (p.after ['\n']) ds)
      cases Lexer.tokens (p.after ['\n']) ds <;> rfl
  | skip p text rest skipped ih =>
      rw [Lexer.tokens_of_skipped skipped] at lexed
      rw [List.append_assoc, Lexer.tokens_of_skipped (skipped.newline ds), ih lexed,
        List.append_assoc, Position.after_append p]
  | token p kind text rest found proper ih =>
      rw [Lexer.tokens_of_matches found proper] at lexed
      obtain ⟨later, tail, rfl⟩ := Lexer.of_tokens_token lexed
      have some : later ≠ [] := (Lexer.tokens_inOrder tail).ended.ne_nil
      rw [List.append_assoc,
        Lexer.tokens_of_matches (found.milder proper (.newline rest ds)) proper, ih tail,
        List.append_assoc, Position.after_append p, List.dropLast_cons_of_ne_nil some]
      cases Lexer.tokens ((p.after text).after (rest ++ ['\n'])) ds <;> rfl
  | fault p cause cs unended =>
      rw [Lexer.tokens_of_unended unended] at lexed
      cases lexed

/-! ## The lines of a text -/

namespace Lexer

variable {p : Position} {cs : List Char}

theorem line_le_after (p : Position) (text : List Char) : p.line ≤ (p.after text).line := by
  have places := p.place_le_after text
  unfold Position.place at places
  rw [Prod.Lex.toLex_le_toLex] at places
  dsimp only at places
  omega

/-- Without a line end a text stays on its line. -/
theorem line_after {text : List Char} (one : '\n' ∉ text) : (p.after text).line = p.line := by
  induction text generalizing p with
  | nil => rfl
  | cons c text ih =>
      obtain ⟨first, later⟩ : '\n' ≠ c ∧ '\n' ∉ text := by simpa using one
      rw [Position.after_cons, ih later]
      unfold Position.step
      rw [if_neg (Ne.symm first)]

/-- The tokens of a text lie in it, by offset and by line. -/
theorem tokens_between {ts : List Token} (lexed : tokens p cs = .ok ts) :
    ∀ t ∈ ts, (p.offset ≤ t.span.start ∧ t.span.stop ≤ (p.after cs).offset) ∧
      p.line ≤ t.span.line ∧ t.span.line ≤ t.span.endLine ∧
      t.span.endLine ≤ (p.after cs).line := by
  induction p, cs using reading_induction generalizing ts with
  | done p =>
      rw [tokens_nil] at lexed
      cases lexed
      intro t member
      rw [List.mem_singleton.mp member]
      exact ⟨⟨Nat.le_refl _, Nat.le_refl _⟩, Nat.le_refl _, Nat.le_refl _, Nat.le_refl _⟩
  | skip p text rest skipped ih =>
      rw [tokens_of_skipped skipped] at lexed
      have offsets := p.offset_le_after text
      have lines := line_le_after p text
      intro t member
      obtain ⟨place, starts, forward, ends⟩ := ih lexed t member
      rw [Position.after_append]
      exact ⟨⟨by omega, place.2⟩, by omega, forward, ends⟩
  | token p kind text rest found proper ih =>
      rw [tokens_of_matches found proper] at lexed
      obtain ⟨later, tail, rfl⟩ := of_tokens_token lexed
      have offsets := p.offset_le_after text
      have lines := line_le_after p text
      rw [Position.after_append]
      intro t member
      rcases List.mem_cons.mp member with rfl | member
      · have offsetsMore := (p.after text).offset_le_after rest
        have linesMore := line_le_after (p.after text) rest
        exact ⟨⟨Nat.le_refl _, offsetsMore⟩, Nat.le_refl _, lines, linesMore⟩
      · obtain ⟨place, starts, forward, ends⟩ := ih tail t member
        exact ⟨⟨by omega, place.2⟩, by omega, forward, ends⟩
  | fault p cause cs unended =>
      rw [tokens_of_unended unended] at lexed
      cases lexed

end Lexer

end EntityFlow
