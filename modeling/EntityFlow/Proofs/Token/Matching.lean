import EntityFlow.Proofs.Token.Extents

/-!
# Tokens match their kinds

Every token of a source matches its kind at the place where it stands, and reaches as far as it can:
what follows does not continue it, and no other text there matches any kind (`Token.lex_matches`).
-/

namespace EntityFlow

namespace Lexer

/-- Every token of a text matches its kind where it stands. -/
theorem tokens_match {front cs : List Char} {ts : List Token}
    (lexed : tokens (.behind front) cs = .ok ts) : ∀ t ∈ ts, ∃ before rest,
      front ++ cs = before ++ t.text.toList ++ rest ∧
        t.span = Span.between (.behind before) (.behind (before ++ t.text.toList)) ∧
        Matches t.kind t.text.toList rest := by
  generalize place : Position.behind front = p at lexed
  -- along the text, with what has been read as the front
  induction p, cs using reading_induction generalizing front ts with
  | done p =>
      rw [tokens_nil] at lexed
      cases lexed
      intro t member
      rw [List.mem_singleton.mp member]
      exact ⟨front, [], by simp, by simp [place], .eof⟩
  | skip p text rest skipped ih =>
      rw [tokens_of_skipped skipped] at lexed
      rw [← place, Position.after_behind] at lexed ih
      rw [← List.append_assoc]
      exact ih rfl lexed
  | token p kind text rest found proper ih =>
      rw [tokens_of_matches found proper] at lexed
      obtain ⟨later, tail, rfl⟩ := of_tokens_token lexed
      rw [← place, Position.after_behind] at tail ih ⊢
      rw [← List.append_assoc, List.forall_mem_cons]
      refine ⟨⟨front, rest, ?_, ?_, ?_⟩, ih rfl tail⟩
      all_goals rw [String.toList_ofList]
      exact found
  | fault p cause cs unended =>
      rw [tokens_of_unended unended] at lexed
      cases lexed

end Lexer

/-! ## The tokens of a source -/

namespace Token

/-- The text of a token matches its kind in front of what follows it. -/
theorem exists_matches {source : String} {tokens : List Token} (lexed : lex source = .ok tokens)
    {t : Token} (member : t ∈ tokens) : ∃ rest, Lexer.Matches t.kind t.text.toList rest := by
  rw [lex, Position.origin_eq_behind] at lexed
  obtain ⟨_, rest, _, _, found⟩ := Lexer.tokens_match lexed t member
  exact ⟨rest, found⟩

/-- A token of a source matches its kind at its place, and no other text there matches any kind. -/
def MatchesIn (source : String) (t : Token) : Prop :=
  ∃ before rest, source.toList = before ++ t.text.toList ++ rest ∧
    t.span = Span.between (.behind before) (.behind (before ++ t.text.toList)) ∧
    Lexer.Matches t.kind t.text.toList rest ∧
    ∀ kind text more, Lexer.Matches kind text more → text ++ more = t.text.toList ++ rest →
      kind = t.kind ∧ text = t.text.toList

/-- **Every token matches its kind, as far as it goes.** -/
theorem lex_matches {source : String} {tokens : List Token} (lexed : lex source = .ok tokens) :
    ∀ t ∈ tokens, t.MatchesIn source := by
  rw [lex, Position.origin_eq_behind] at lexed
  intro t member
  obtain ⟨before, rest, split, span, found⟩ := Lexer.tokens_match lexed t member
  exact ⟨before, rest, split, span, found, fun _ _ _ other same => found.unique other same⟩

/-- A point without a fraction, documentation of one star, a quote behind a backslash, and a slash
at the end. -/
theorem lex_matches_ends :
    lex "-1./***/'\\''/" = .ok [⟨.int, "-1", ⟨0, 2, 1, 1, 1, 3⟩⟩, ⟨.dot, ".", ⟨2, 3, 1, 3, 1, 4⟩⟩,
        ⟨.javadoc, "/***/", ⟨3, 8, 1, 4, 1, 9⟩⟩, ⟨.singleQuoted, "'\\''", ⟨8, 12, 1, 9, 1, 13⟩⟩,
        ⟨.unknown, "/", ⟨12, 13, 1, 13, 1, 14⟩⟩, ⟨.eof, "", ⟨13, 13, 1, 14, 1, 14⟩⟩] ∧
      ∀ t ∈ [⟨.int, "-1", ⟨0, 2, 1, 1, 1, 3⟩⟩, ⟨.dot, ".", ⟨2, 3, 1, 3, 1, 4⟩⟩,
        ⟨.javadoc, "/***/", ⟨3, 8, 1, 4, 1, 9⟩⟩, ⟨.singleQuoted, "'\\''", ⟨8, 12, 1, 9, 1, 13⟩⟩,
        ⟨.unknown, "/", ⟨12, 13, 1, 13, 1, 14⟩⟩, ⟨.eof, "", ⟨13, 13, 1, 14, 1, 14⟩⟩],
        MatchesIn "-1./***/'\\''/" t := by
  have lexed : lex "-1./***/'\\''/" = .ok [⟨.int, "-1", ⟨0, 2, 1, 1, 1, 3⟩⟩,
      ⟨.dot, ".", ⟨2, 3, 1, 3, 1, 4⟩⟩, ⟨.javadoc, "/***/", ⟨3, 8, 1, 4, 1, 9⟩⟩,
      ⟨.singleQuoted, "'\\''", ⟨8, 12, 1, 9, 1, 13⟩⟩, ⟨.unknown, "/", ⟨12, 13, 1, 13, 1, 14⟩⟩,
      ⟨.eof, "", ⟨13, 13, 1, 14, 1, 14⟩⟩] := by decide +kernel
  exact ⟨lexed, lex_matches lexed⟩

end Token

end EntityFlow
