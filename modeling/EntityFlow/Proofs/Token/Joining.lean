import EntityFlow.Proofs.Token.Extents
import EntityFlow.Proofs.Token.Lines

/-!
# Sources below one another

The tokens of two texts with a line end between them are those of the upper text, without its end
token, and those of the lower one, moved by the bytes and lines above it; a fault of the lower text
moves along with it (`Token.lex_joined`).
-/

namespace EntityFlow

/-- The fault so many bytes and lines further on. -/
def LexicalFault.moved (bytes lines : Nat) (f : LexicalFault) : LexicalFault :=
  ⟨f.cause, f.position.moved bytes lines⟩

/-- A text without tokens has the same fault at another place. -/
theorem Lexer.tokens_moved_error (bytes lines : Nat) {p : Position} {cs : List Char}
    {fault : LexicalFault} (failed : Lexer.tokens p cs = .error fault) :
    Lexer.tokens (p.moved bytes lines) cs = .error (fault.moved bytes lines) := by
  induction p, cs using Lexer.reading_induction with
  | done p =>
      rw [Lexer.tokens_nil] at failed
      cases failed
  | skip p text rest skipped ih =>
      rw [Lexer.tokens_of_skipped skipped] at failed ⊢
      rw [Position.after_moved]
      exact ih failed
  | token p kind text rest found proper ih =>
      rw [Lexer.tokens_of_matches found proper] at failed ⊢
      rw [Position.after_moved, ih (Lexer.error_of_tokens_token failed)]
      rfl
  | fault p cause cs unended =>
      -- what goes wrong is seen in the text alone, without the place
      rw [Lexer.tokens_of_unended unended] at failed ⊢
      cases failed
      rfl

/-- The position below a text is as far from the start as its bytes and line ends say. -/
theorem Position.behind_newline (text : String) :
    Position.behind (text.toList ++ ['\n']) =
      Position.origin.moved (text.utf8ByteSize + 1) (text.toList.count '\n' + 1) := by
  rw [Position.behind_concat]
  show (⟨(String.ofList text.toList).utf8ByteSize + 1, _, 1⟩ : Position) = ⟨_, _, 1⟩
  rw [String.ofList_toList, Position.mk.injEq]
  refine ⟨(Nat.zero_add _).symm, ?_, rfl⟩
  show 1 + text.toList.count '\n' + 1 = 1 + (text.toList.count '\n' + 1)
  omega

/-- All tokens but the end token are all but the last one. -/
theorem Token.Covers.filter_eq {source : String} {tokens : List Token}
    (covers : Covers source tokens) : tokens.filter (·.kind != .eof) = tokens.dropLast := by
  obtain ⟨before, split⟩ := List.getLast?_eq_some_iff.mp covers.last
  have proper := covers.proper
  rw [split] at proper ⊢
  rw [List.dropLast_concat] at proper ⊢
  rw [List.filter_append, List.filter_cons_of_neg (by simp), List.filter_nil, List.append_nil]
  apply List.filter_eq_self.mpr
  intro t member
  simpa using proper t member

/-- **Across a line end two texts are read on their own.** -/
theorem Token.lex_joined {above : String} {front : List Token}
    (lexed : Token.lex above = .ok front) (below : String) :
    Token.lex (above ++ "\n" ++ below) =
      match Token.lex below with
      | .ok back => .ok (front.filter (·.kind != .eof) ++
          back.map (Token.moved (above.utf8ByteSize + 1) (above.toList.count '\n' + 1)))
      | .error fault =>
          .error (fault.moved (above.utf8ByteSize + 1) (above.toList.count '\n' + 1)) := by
  have split : (above ++ "\n" ++ below).toList = above.toList ++ '\n' :: below.toList := by
    rw [String.toList_append, String.toList_append, List.append_assoc]
    rfl
  have place : Position.origin.after (above.toList ++ ['\n']) =
      Position.origin.moved (above.utf8ByteSize + 1) (above.toList.count '\n' + 1) := by
    rw [← Position.behind_newline, Position.origin_eq_behind, Position.after_behind]
    rfl
  rw [(Token.lex_covers lexed).filter_eq]
  show Lexer.tokens Position.origin (above ++ "\n" ++ below).toList = _
  rw [split, Lexer.tokens_append_newline lexed, place]
  cases lexedBelow : Token.lex below with
  | ok back =>
      rw [Lexer.tokens_moved _ _ lexedBelow]
      rfl
  | error fault =>
      rw [Lexer.tokens_moved_error _ _ lexedBelow]
      rfl

/-- Below a line comment and a text over two lines: once a word, once a text that is never
closed. -/
theorem Token.lex_joined_comment :
    Token.lex ("'a\\\né' // 'b" ++ "\n" ++ " c") = .ok [
        ⟨.singleQuoted, "'a\\\né'", ⟨0, 7, 1, 1, 2, 3⟩⟩, ⟨.word, "c", ⟨15, 16, 3, 2, 3, 3⟩⟩,
        ⟨.eof, "", ⟨16, 16, 3, 3, 3, 3⟩⟩] ∧
      Token.lex ("'a\\\né' // 'b" ++ "\n" ++ " 'c") =
        .error ⟨.stringLiteral, ⟨15, 3, 2⟩⟩ := by
  have lexed : Token.lex "'a\\\né' // 'b" = .ok [
      ⟨.singleQuoted, "'a\\\né'", ⟨0, 7, 1, 1, 2, 3⟩⟩,
      ⟨.eof, "", ⟨13, 13, 2, 9, 2, 9⟩⟩] := by decide +kernel
  have word : Token.lex " c" = .ok [⟨.word, "c", ⟨1, 2, 1, 2, 1, 3⟩⟩,
      ⟨.eof, "", ⟨2, 2, 1, 3, 1, 3⟩⟩] := by decide +kernel
  have unclosed : Token.lex " 'c" = .error ⟨.stringLiteral, ⟨1, 1, 2⟩⟩ := by decide +kernel
  rw [Token.lex_joined lexed, Token.lex_joined lexed, word, unclosed]
  decide +kernel

end EntityFlow
