import EntityFlow.Proofs.Token.Matching

/-!
# The spelling of tokens

The text of a token is not free: punctuation is its one character, and a word is made of the
characters of words (`Token.lex_spelled`).
-/

namespace EntityFlow

/-- A token is spelled as its kind asks for. -/
structure Token.Spelled (t : Token) : Prop where
  symbol : t.kind.symbol ≠ "" → t.text = t.kind.symbol
  word : t.kind = .word → t.text ≠ "" ∧ ∀ c ∈ t.text.toList, Lexer.continuesWord c = true

namespace Lexer

variable {text rest : List Char} {kind : Token.Kind}

/-- That a kind asks for no spelling: it is neither punctuation nor the kind of words. -/
def unspelled (kind : Token.Kind) : Bool := kind.symbol == "" && kind != .word

theorem spelled_of_unspelled {t : Token} (unspelled : Lexer.unspelled t.kind = true) :
    t.Spelled := by
  obtain ⟨noSymbol, noWord⟩ := Bool.and_eq_true_iff.mp unspelled
  exact ⟨fun some => absurd (beq_iff_eq.mp noSymbol) some,
    fun word => absurd word (bne_iff_ne.mp noWord)⟩

theorem Matches.spelled (found : Matches kind text rest) (span : Span) :
    (⟨kind, String.ofList text, span⟩ : Token).Spelled := by
  cases found with
  | @word c tail _ starts continued stops =>
      refine ⟨fun some => absurd rfl some, fun _ => ⟨by simp, ?_⟩⟩
      rw [String.toList_ofList, List.forall_mem_cons]
      exact ⟨continuesWord_of_startsWord starts, continued⟩
  | symbol symbol =>
      refine ⟨fun _ => symbol.symm, fun word => ?_⟩
      rw [show kind = .word from word] at symbol
      simp [Token.Kind.symbol] at symbol
  | quoted quoted =>
      apply spelled_of_unspelled
      cases kind <;> cases quoted <;> rfl
  | int | number | javadoc | unknown | eof => exact spelled_of_unspelled rfl

end Lexer

/-- The tokens of a source are spelled as their kinds ask for. -/
theorem Token.lex_spelled {source : String} {tokens : List Token}
    (lexed : Token.lex source = .ok tokens) : ∀ t ∈ tokens, t.Spelled := by
  intro t member
  obtain ⟨rest, found⟩ := Token.exists_matches lexed member
  have spelled := found.spelled t.span
  rwa [String.ofList_toList] at spelled

end EntityFlow
