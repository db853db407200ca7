import EntityFlow.Proofs.Token.Extents
import EntityFlow.Proofs.Token.Lines

/-!
# Faults of the lexer

The lexer fails for one reason only, something that starts and has no end (`Lexer.Unended`), and it
reports where that starts (`Token.lex_unended`):

* the text in front of the place has tokens, so nothing before it is at fault;
* a text without an end fails at its start also below any text that has tokens, at a line's start.
-/

namespace EntityFlow

namespace Lexer

variable {p : Position} {cause : LexicalCause} {cs : List Char} {fault : LexicalFault}

/-! ## What a failure says about the text -/

/-- Where the lexer fails, something starts that has no end, and what stands above has tokens. -/
theorem unended_of_tokens (failed : tokens p cs = .error fault) : ∃ above below,
    cs = above ++ below ∧ (∃ ts, tokens p above = .ok ts) ∧ fault.position = p.after above ∧
      Unended fault.cause below := by
  induction p, cs using reading_induction with
  | done p =>
      rw [tokens_nil] at failed
      cases failed
  | skip p text rest skipped ih =>
      rw [tokens_of_skipped skipped] at failed
      obtain ⟨above, below, rfl, ⟨ts, lexed⟩, place, unended⟩ := ih failed
      -- what is skipped does not look at what is cut off
      have first := skipped.of_front (List.prefix_append above below)
      refine ⟨text ++ above, below, (List.append_assoc _ _ _).symm, ⟨ts, ?_⟩, ?_, unended⟩
      · rw [tokens_of_skipped first, lexed]
      · rw [place, Position.after_append]
  | token p kind text rest found proper ih =>
      rw [tokens_of_matches found proper] at failed
      obtain ⟨above, below, rfl, ⟨ts, lexed⟩, place, unended⟩ := ih (error_of_tokens_token failed)
      have first := found.milder proper (.of_front (List.prefix_append above below))
      refine ⟨text ++ above, below, (List.append_assoc _ _ _).symm, ?_, ?_, unended⟩
      · rw [tokens_of_matches first proper, lexed]
        exact ⟨_, rfl⟩
      · rw [place, Position.after_append]
  | fault p cause cs unended =>
      rw [tokens_of_unended unended] at failed
      cases failed
      exact ⟨[], cs, rfl, ⟨_, tokens_nil⟩, rfl, unended⟩

/-- The wording of a fault tells block comments from quoted texts. -/
theorem Unended.message_iff (unended : Unended cause cs) :
    cause.message = "unterminated block comment" ↔ ['/', '*'] <+: cs := by
  have quoted {quote : Char} (isQuote : quote = '"' ∨ quote = '\'') (more : List Char) :
      ¬ ['/', '*'] <+: quote :: more := by
    rw [List.cons_prefix_cons]
    rintro ⟨rfl, -⟩
    exact absurd isQuote (by decide)
  cases unended with
  | @comment body none => exact iff_of_true rfl (List.prefix_append ['/', '*'] body)
  | line isQuote enclosed => exact iff_of_false (by decide) (quoted isQuote _)
  | stop isQuote enclosed => exact iff_of_false (by decide) (quoted isQuote _)
  | escape isQuote enclosed => exact iff_of_false (by decide) (quoted isQuote _)

/-! ## Below a line end -/

theorem Enclosed.append {quote : Char} {inside more : List Char} (first : Enclosed quote inside)
    (second : Enclosed quote more) : Enclosed quote (inside ++ more) := by
  induction first with
  | nil => exact second
  | plain proper other line _ ih => exact .plain proper other line ih
  | pair _ ih => exact .pair ih

/-- What has no end has none with a line end behind it either. -/
theorem Unended.newline (unended : Unended cause cs) :
    ∃ other, Unended other (cs ++ ['\n']) := by
  cases unended with
  | @comment body none =>
      have longer : ¬ ['*', '/'] <:+: body ++ ['\n'] := by
        intro inside
        rcases List.infix_concat_iff.mp inside with ends | inside
        · have last := ends.getLast (by simp)
          simp at last
        · exact none inside
      exact ⟨_, .comment longer⟩
  | line isQuote enclosed => exact ⟨_, by simpa using Unended.line isQuote enclosed⟩
  | stop isQuote enclosed => exact ⟨_, .line isQuote enclosed⟩
  | escape isQuote enclosed =>
      exact ⟨_, by simpa using Unended.stop isQuote (enclosed.append (.pair (c := '\n') .nil))⟩

theorem tokens_newline_error (failed : tokens p cs = .error fault) :
    ∃ cause, tokens p (cs ++ ['\n']) = .error ⟨cause, fault.position⟩ := by
  induction p, cs using reading_induction with
  | done p =>
      rw [tokens_nil] at failed
      cases failed
  | skip p text rest skipped ih =>
      rw [tokens_of_skipped skipped] at failed
      obtain ⟨cause, later⟩ := ih failed
      refine ⟨cause, ?_⟩
      rw [List.append_assoc, tokens_of_skipped (skipped.newline []), later]
  | token p kind text rest found proper ih =>
      rw [tokens_of_matches found proper] at failed
      obtain ⟨cause, later⟩ := ih (error_of_tokens_token failed)
      refine ⟨cause, ?_⟩
      rw [List.append_assoc,
        tokens_of_matches (found.milder proper (.newline rest [])) proper, later]
      rfl
  | fault p cause cs unended =>
      rw [tokens_of_unended unended] at failed
      cases failed
      obtain ⟨other, longer⟩ := unended.newline
      exact ⟨other, tokens_of_unended longer⟩

/-- A text that lacks an end fails below a line end, if there are tokens above it. -/
theorem tokens_above_unended {above below : List Char} {ts : List Token}
    (lexed : tokens p above = .ok ts) (ends : above = [] ∨ ∃ front, above = front ++ ['\n'])
    (unended : Unended cause below) :
    tokens p (above ++ below) = .error ⟨cause, p.after above⟩ := by
  rcases ends with rfl | ⟨front, rfl⟩
  · exact tokens_of_unended unended
  · cases first : tokens p front with
    | error fault =>
        obtain ⟨other, failed⟩ := tokens_newline_error first
        rw [lexed] at failed
        cases failed
    | ok us =>
        rw [List.append_assoc, List.singleton_append, tokens_append_newline first,
          tokens_of_unended unended]
        rfl

end Lexer

/-! ## The faults of a source -/

/-- A fault reports a start without an end: the text above it has tokens, its place is the one
behind that text, and its wording tells block comments from quoted texts. -/
def LexicalFault.Reports (fault : LexicalFault) (source : String) : Prop :=
  ∃ above below : String, source = above ++ below ∧ (∃ tokens, Token.lex above = .ok tokens) ∧
    fault.position = .behind above.toList ∧ Lexer.Unended fault.cause below.toList ∧
    (fault.cause.message = "unterminated block comment" ↔ ['/', '*'] <+: below.toList)

namespace Token

/-- **The lexer fails where something starts that has no end.** -/
theorem lex_unended :
    (∀ (source : String) (fault : LexicalFault), lex source = .error fault →
      fault.Reports source) ∧
    ∀ (above below : String) (cause : LexicalCause), (∃ tokens, lex above = .ok tokens) →
      (above = "" ∨ ∃ front, above = front ++ "\n") → Lexer.Unended cause below.toList →
        lex (above ++ below) = .error ⟨cause, .behind above.toList⟩ := by
  constructor
  · intro source fault failed
    obtain ⟨above, below, split, ⟨ts, lexed⟩, place, unended⟩ := Lexer.unended_of_tokens failed
    refine ⟨String.ofList above, String.ofList below, ?_, ⟨ts, ?_⟩, ?_, ?_, ?_⟩
    · rw [← String.ofList_append, ← split, String.ofList_toList]
    · rw [lex, String.toList_ofList, lexed]
    · rw [place, Position.origin_eq_behind, Position.after_behind, String.toList_ofList]
      rfl
    · rwa [String.toList_ofList]
    · rw [String.toList_ofList]
      exact unended.message_iff
  · rintro above below cause ⟨ts, lexed⟩ ends unended
    rw [lex, String.toList_append, Lexer.tokens_above_unended lexed ?_ unended,
      Position.origin_eq_behind, Position.after_behind]
    · rfl
    · rcases ends with rfl | ⟨front, rfl⟩
      · exact .inl rfl
      · exact .inr ⟨front.toList, String.toList_append⟩

/-- An opening mark in a quoted text starts no comment, and a line end behind a backslash ends no
quoted text; a quote in a comment is none, and a slash shares its star with no end mark. -/
theorem lex_unended_opener :
    lex "'/*' é\n\"\\\nb\n\"" = .error ⟨.stringLiteral, ⟨8, 2, 1⟩⟩ ∧
      LexicalFault.Reports ⟨.stringLiteral, ⟨8, 2, 1⟩⟩ "'/*' é\n\"\\\nb\n\"" ∧
      lex ("/*'*/\n" ++ "/*/'") = .error ⟨.blockComment, ⟨6, 2, 1⟩⟩ := by
  have failed : lex "'/*' é\n\"\\\nb\n\"" = .error ⟨.stringLiteral, ⟨8, 2, 1⟩⟩ := by decide +kernel
  have lexed : lex "/*'*/\n" = .ok [⟨.eof, "", ⟨6, 6, 2, 1, 2, 1⟩⟩] := by decide +kernel
  have unended : Lexer.Unended .blockComment "/*/'".toList := .comment (by decide)
  exact ⟨failed, lex_unended.1 _ _ failed,
    lex_unended.2 "/*'*/\n" "/*/'" .blockComment ⟨_, lexed⟩ (.inr ⟨"/*'*/", rfl⟩) unended⟩

end Token

end EntityFlow
