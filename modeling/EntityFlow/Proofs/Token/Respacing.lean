import EntityFlow.Proofs.Token.Joining
import EntityFlow.Proofs.Token.Literals
import EntityFlow.Proofs.Token.Matching

/-!
# The texts of tokens apart

The tokens of a source, written with a space between each two, are read again as what they are
(`Token.lex_respaced`): a token never needs what follows it, since what matches its kind in front of
anything does so in front of a space and at the end of a source.
-/

namespace EntityFlow

namespace Lexer

/-- A kind other than that of the end token, with a text that matches it somewhere. -/
def Proper (x : Token.Kind × String) : Prop :=
  x.1 ≠ .eof ∧ ∃ rest, Matches x.1 x.2.toList rest

variable {x : Token.Kind × String} {rest : List Char}

theorem lexes_token {before : List Char} (proper : x.1 ≠ .eof)
    (found : Matches x.1 x.2.toList before) (milder : Milder before rest) :
    Lexes x.2.toList [x] rest := by
  have token := Lexes.of_matches (found.milder proper milder) proper
  rwa [String.ofList_toList] at token

/-- Texts that match their kinds are read as they are with a space between each two. -/
theorem lexes_spaced {xs : List (Token.Kind × String)} (proper : ∀ x ∈ xs, Proper x) :
    Lexes ([' '].intercalate (xs.map (·.2.toList))) xs [] := by
  induction xs with
  | nil => exact .nil []
  | cons x xs ih =>
      obtain ⟨⟨notEof, before, found⟩, others⟩ := List.forall_mem_cons.mp proper
      cases xs with
      | nil =>
          rw [List.map_cons, List.map_nil, List.intercalate_singleton]
          exact lexes_token notEof found (.of_front List.nil_prefix)
      | cons y ys =>
          rw [List.map_cons, List.map_cons, List.intercalate_cons_cons]
          have first := lexes_token notEof found
            (.space before ([' '].intercalate ((y :: ys).map (·.2.toList)) ++ []))
          have space : Lexes [' '] [] ([' '].intercalate ((y :: ys).map (·.2.toList)) ++ []) :=
            .blanks (List.forall_mem_singleton.mpr (by decide))
          exact Lexes.append (Lexes.append first space) (ih others)

end Lexer

namespace Token

/-- **Tokens written apart are read again.** -/
theorem lex_respaced {source : String} {tokens : List Token} (lexed : lex source = .ok tokens) :
    ∃ again, lex (" ".intercalate ((tokens.filter (·.kind != .eof)).map text)) = .ok again ∧
      again.map lexeme = tokens.map lexeme := by
  have covers := lex_covers lexed
  obtain ⟨front, split⟩ := List.getLast?_eq_some_iff.mp covers.last
  have proper := covers.proper
  rw [covers.filter_eq]
  rw [split, List.dropLast_concat] at proper ⊢
  have each : ∀ x ∈ front.map lexeme, Lexer.Proper x := by
    rw [List.forall_mem_map]
    intro t member
    have inTokens : t ∈ tokens := split ▸ List.mem_append_left _ member
    exact ⟨proper t member, exists_matches lexed inTokens⟩
  have written : (" ".intercalate (front.map text)).toList =
      [' '].intercalate ((front.map lexeme).map (·.2.toList)) := by
    rw [String.toList_intercalate, List.map_map, List.map_map]
    rfl
  obtain ⟨again, known, read⟩ := Lexer.lexes_spaced each Position.origin
  rw [List.append_nil, ← written, Lexer.tokens_nil] at read
  refine ⟨_, read, ?_⟩
  rw [List.map_append, List.map_append, known]
  rfl

/-- A sign and a slash alone, documentation, a point behind digits, and a comment opener in a quoted
text. -/
theorem lex_respaced_slashes :
    lex "-/**a*/1.x'//\\''/" = .ok [⟨.unknown, "-", ⟨0, 1, 1, 1, 1, 2⟩⟩,
        ⟨.javadoc, "/**a*/", ⟨1, 7, 1, 2, 1, 8⟩⟩, ⟨.int, "1", ⟨7, 8, 1, 8, 1, 9⟩⟩,
        ⟨.dot, ".", ⟨8, 9, 1, 9, 1, 10⟩⟩, ⟨.word, "x", ⟨9, 10, 1, 10, 1, 11⟩⟩,
        ⟨.singleQuoted, "'//\\''", ⟨10, 16, 1, 11, 1, 17⟩⟩, ⟨.unknown, "/", ⟨16, 17, 1, 17, 1, 18⟩⟩,
        ⟨.eof, "", ⟨17, 17, 1, 18, 1, 18⟩⟩] ∧
      ∃ again, lex "- /**a*/ 1 . x '//\\'' /" = .ok again ∧
        again.map lexeme = [(.unknown, "-"), (.javadoc, "/**a*/"), (.int, "1"), (.dot, "."),
          (.word, "x"), (.singleQuoted, "'//\\''"), (.unknown, "/"), (.eof, "")] := by
  have lexed : lex "-/**a*/1.x'//\\''/" = .ok [⟨.unknown, "-", ⟨0, 1, 1, 1, 1, 2⟩⟩,
      ⟨.javadoc, "/**a*/", ⟨1, 7, 1, 2, 1, 8⟩⟩, ⟨.int, "1", ⟨7, 8, 1, 8, 1, 9⟩⟩,
      ⟨.dot, ".", ⟨8, 9, 1, 9, 1, 10⟩⟩, ⟨.word, "x", ⟨9, 10, 1, 10, 1, 11⟩⟩,
      ⟨.singleQuoted, "'//\\''", ⟨10, 16, 1, 11, 1, 17⟩⟩, ⟨.unknown, "/", ⟨16, 17, 1, 17, 1, 18⟩⟩,
      ⟨.eof, "", ⟨17, 17, 1, 18, 1, 18⟩⟩] := by decide +kernel
  exact ⟨lexed, lex_respaced lexed⟩

end Token

end EntityFlow
