import Mathlib.Data.Prod.Lex
import EntityFlow.Proofs.Grammar.Movement
import EntityFlow.Token.Lexer

/-!
# The order of tokens

The tokens of a source stand one behind the other: each proper token has a span that is not empty
and starts where or after the one before it stops, and the end token, empty and without text, is the
last one (`Token.lex_inOrder`). `Token.Arranged` says the same token by token. By line and column
the tokens are in order, too (`Token.lex_placed`).
-/

namespace EntityFlow

/-! ## Positions move forward -/

theorem Position.offset_le_after (p : Position) (text : List Char) :
    p.offset ≤ (p.after text).offset := by
  induction text generalizing p with
  | nil => exact Nat.le_refl _
  | cons c text ih =>
      have step : p.offset ≤ (p.step c).offset := by
        unfold Position.step
        split <;> exact Nat.le_add_right _ _
      rw [Position.after_cons]
      exact Nat.le_trans step (ih _)

theorem Position.offset_lt_after (p : Position) {text : List Char} (some : text ≠ []) :
    p.offset < (p.after text).offset := by
  obtain ⟨c, rest, rfl⟩ := List.exists_cons_of_ne_nil some
  have positive := c.utf8Size_pos
  have step : p.offset < (p.step c).offset := by
    unfold Position.step
    split <;> exact Nat.lt_add_of_pos_right positive
  rw [Position.after_cons]
  exact Nat.lt_of_lt_of_le step (Position.offset_le_after _ _)

/-- The line and the column of a position, ordered by line and then by column. -/
def Position.place (p : Position) : ℕ ×ₗ ℕ := toLex (p.line, p.column)

/-- The line and the column at which a span starts. -/
def Span.place (s : Span) : ℕ ×ₗ ℕ := toLex (s.line, s.column)

/-- The line and the column at which a span ends. -/
def Span.endPlace (s : Span) : ℕ ×ₗ ℕ := toLex (s.endLine, s.endColumn)

theorem Position.place_le_step (p : Position) (c : Char) : p.place ≤ (p.step c).place := by
  unfold Position.step Position.place
  rw [Prod.Lex.toLex_le_toLex]
  split
  · exact Or.inl (Nat.lt_succ_self _)
  · exact Or.inr ⟨rfl, Nat.le_succ _⟩

theorem Position.place_le_after (p : Position) (text : List Char) :
    p.place ≤ (p.after text).place := by
  induction text generalizing p with
  | nil => exact le_refl _
  | cons c text ih =>
      rw [Position.after_cons]
      exact le_trans (p.place_le_step c) (ih _)

/-! ## No scan yields an end token -/

namespace Lexer

theorem kindOfChar_ne_eof (c : Char) : Token.Kind.ofChar c ≠ .eof := by
  unfold Token.Kind.ofChar
  split <;> decide

theorem scanComment_kind {doc : Bool} {body text rest : List Char} {kind : Token.Kind}
    (scanned : scanComment doc body = .token kind text rest) : kind ≠ .eof := by
  unfold scanComment at scanned
  split at scanned
  · cases scanned
  · split at scanned
    · cases scanned
      decide
    · cases scanned

theorem scanString_kind {quote : Char} {body text rest : List Char} {kind : Token.Kind}
    (scanned : scanString quote body = .token kind text rest) : kind ≠ .eof := by
  unfold scanString at scanned
  split at scanned
  · cases scanned
  · injection scanned with kindEqual
    rw [← kindEqual]
    split <;> decide

theorem scanNumber_kind {c : Char} {body text rest : List Char} {kind : Token.Kind}
    (scanned : scanNumber c body = .token kind text rest) : kind ≠ .eof := by
  unfold scanNumber at scanned
  dsimp only at scanned
  split at scanned
  · split at scanned
    · cases scanned
      decide
    · cases scanned
      decide
  · cases scanned
    decide

theorem scan_kind {c : Char} {tail text rest : List Char} {kind : Token.Kind}
    (scanned : scan c tail = .token kind text rest) : kind ≠ .eof := by
  unfold scan at scanned
  split at scanned
  · cases scanned
  · split at scanned
    · exact scanComment_kind scanned
    · split at scanned
      · cases scanned
      · split at scanned
        · exact scanString_kind scanned
        · split at scanned
          · exact scanNumber_kind scanned
          · split at scanned
            · cases scanned
              decide
            · cases scanned
              exact kindOfChar_ne_eof c

end Lexer

/-! ## Tokens in order -/

namespace Token

/-- Tokens in the order of a source, from a place on. -/
def InOrder (lower : Nat) : List Token → Prop
  | [] => False
  | [t] => t.kind = .eof ∧ t.text = "" ∧ lower ≤ t.span.start ∧ t.span.stop = t.span.start
  | t :: u :: rest =>
      t.kind ≠ .eof ∧ lower ≤ t.span.start ∧ t.span.start < t.span.stop ∧
        InOrder t.span.stop (u :: rest)

namespace InOrder

theorem ended {lower : Nat} {tokens : List Token} (ordered : InOrder lower tokens) :
    Ended tokens := by
  induction tokens generalizing lower with
  | nil => exact ordered
  | cons t rest ih =>
      cases rest with
      | nil => exact ordered.1
      | cons u rest => exact ⟨ordered.1, ih ordered.2.2.2⟩

/-- A proper token in front of tokens in order. -/
theorem cons {lower : Nat} {t : Token} {rest : List Token} (proper : t.kind ≠ .eof)
    (starts : lower ≤ t.span.start) (some : t.span.start < t.span.stop)
    (ordered : InOrder t.span.stop rest) : InOrder lower (t :: rest) := by
  obtain ⟨u, tail, rfl⟩ := List.exists_cons_of_ne_nil ordered.ended.ne_nil
  exact ⟨proper, starts, some, ordered⟩

theorem weaken {lower bound : Nat} {tokens : List Token} (ordered : InOrder bound tokens)
    (le : lower ≤ bound) : InOrder lower tokens := by
  cases tokens with
  | nil => exact ordered
  | cons t rest =>
      cases rest with
      | nil =>
          obtain ⟨atEnd, empty, starts, stops⟩ := ordered
          exact ⟨atEnd, empty, Nat.le_trans le starts, stops⟩
      | cons u rest =>
          obtain ⟨proper, starts, some, ordered⟩ := ordered
          exact ⟨proper, Nat.le_trans le starts, some, ordered⟩

end InOrder

/-- The tokens lie where they should: in order, from the given place on, and only the end token is
empty and has no text. -/
structure Arranged (lower : Nat) (tokens : List Token) : Prop where
  apart : tokens.Pairwise fun s t => s.span.stop ≤ t.span.start
  start_ge : ∀ t ∈ tokens, lower ≤ t.span.start
  start_lt : ∀ t ∈ tokens, t.kind ≠ .eof → t.span.start < t.span.stop
  stop_eof : ∀ t ∈ tokens, t.kind = .eof → t.span.stop = t.span.start
  text_eof : ∀ t ∈ tokens, t.kind = .eof → t.text = ""

theorem InOrder.arranged {lower : Nat} {tokens : List Token} (ordered : InOrder lower tokens) :
    Arranged lower tokens := by
  induction tokens generalizing lower with
  | nil => exact absurd ordered id
  | cons t rest ih =>
      cases rest with
      | nil =>
          obtain ⟨atEnd, empty, starts, stops⟩ := ordered
          refine ⟨List.pairwise_singleton _ _, ?_, ?_, ?_, ?_⟩
          all_goals
            intro x member
            rw [List.mem_singleton.mp member]
          · exact starts
          · intro proper
            exact absurd atEnd proper
          · intro _
            exact stops
          · intro _
            exact empty
      | cons u rest =>
          obtain ⟨proper, starts, some, ordered⟩ := ordered
          have tail := ih ordered
          refine ⟨List.pairwise_cons.mpr ⟨tail.start_ge, tail.apart⟩, ?_, ?_, ?_, ?_⟩
          · intro x member
            rcases List.mem_cons.mp member with rfl | member
            · exact starts
            · -- the tail starts where the first token stops
              have := tail.start_ge x member
              omega
          · intro x member properX
            rcases List.mem_cons.mp member with rfl | member
            · exact some
            · exact tail.start_lt x member properX
          · intro x member atEnd
            rcases List.mem_cons.mp member with rfl | member
            · exact absurd atEnd proper
            · exact tail.stop_eof x member atEnd
          · intro x member atEnd
            rcases List.mem_cons.mp member with rfl | member
            · exact absurd atEnd proper
            · exact tail.text_eof x member atEnd

theorem Arranged.start_le {lower : Nat} {tokens : List Token} (arranged : Arranged lower tokens)
    {t : Token} (member : t ∈ tokens) : t.span.start ≤ t.span.stop := by
  by_cases atEnd : t.kind = .eof
  · exact Nat.le_of_eq (arranged.stop_eof t member atEnd).symm
  · exact Nat.le_of_lt (arranged.start_lt t member atEnd)

end Token

theorem Lexer.tokens_inOrder {p : Position} {cs : List Char} {tokens : List Token}
    (lexed : Lexer.tokens p cs = .ok tokens) : Token.InOrder p.offset tokens := by
  fun_induction Lexer.tokens p cs generalizing tokens with
  | case1 p =>
      cases lexed
      exact ⟨rfl, rfl, Nat.le_refl _, rfl⟩
  | case2 p c rest text more front ih =>
      exact (ih lexed).weaken (Position.offset_le_after p text)
  | case3 p c rest kind text more front ih =>
      cases tail : Lexer.tokens (p.after text) more with
      | error fault =>
          rw [tail] at lexed
          cases lexed
      | ok ts =>
          rw [tail] at lexed
          cases lexed
          have splits := Lexer.scan_splits c rest
          rw [front] at splits
          exact Token.InOrder.cons (Lexer.scan_kind front) (Nat.le_refl _)
            (Position.offset_lt_after p splits.2) (ih tail)
  | case4 => cases lexed

/-- The places of the tokens are in order, from the given one on: no token ends before it starts or
after the next one starts. -/
structure Token.Placed (lower : ℕ ×ₗ ℕ) (tokens : List Token) : Prop where
  place_ge : ∀ t ∈ tokens, lower ≤ t.span.place
  place_le : ∀ t ∈ tokens, t.span.place ≤ t.span.endPlace
  apart : tokens.Pairwise fun s t => s.span.endPlace ≤ t.span.place

theorem Token.Placed.weaken {lower bound : ℕ ×ₗ ℕ} {tokens : List Token}
    (placed : Placed bound tokens) (le : lower ≤ bound) : Placed lower tokens :=
  ⟨fun t member => le_trans le (placed.place_ge t member), placed.place_le, placed.apart⟩

theorem Token.Placed.places {lower : ℕ ×ₗ ℕ} {tokens : List Token} (placed : Placed lower tokens) :
    tokens.Pairwise fun s t => s.span.place ≤ t.span.place :=
  placed.apart.imp_of_mem fun member _ before => le_trans (placed.place_le _ member) before

theorem Token.Placed.endPlaces {lower : ℕ ×ₗ ℕ} {tokens : List Token}
    (placed : Placed lower tokens) :
    tokens.Pairwise fun s t => s.span.endPlace ≤ t.span.endPlace :=
  placed.apart.imp_of_mem fun _ member before => le_trans before (placed.place_le _ member)

theorem Lexer.tokens_placed {p : Position} {cs : List Char} {tokens : List Token}
    (lexed : Lexer.tokens p cs = .ok tokens) : Token.Placed p.place tokens := by
  fun_induction Lexer.tokens p cs generalizing tokens with
  | case1 p =>
      cases lexed
      refine ⟨?_, ?_, List.pairwise_singleton _ _⟩
      all_goals
        intro t member
        rw [List.mem_singleton.mp member]
        exact le_refl _
  | case2 p c rest text more front ih => exact (ih lexed).weaken (p.place_le_after text)
  | case3 p c rest kind text more front ih =>
      cases tail : Lexer.tokens (p.after text) more with
      | error fault =>
          rw [tail] at lexed
          cases lexed
      | ok ts =>
          rw [tail] at lexed
          cases lexed
          have placed := ih tail
          have forward := p.place_le_after text
          exact ⟨List.forall_mem_cons.mpr ⟨le_refl _, (placed.weaken forward).place_ge⟩,
            List.forall_mem_cons.mpr ⟨forward, placed.place_le⟩,
            List.pairwise_cons.mpr ⟨placed.place_ge, placed.apart⟩⟩
  | case4 => cases lexed

/-- The places of the tokens of a source are in order. -/
theorem Token.lex_placed {source : String} {tokens : List Token}
    (lexed : Token.lex source = .ok tokens) : Token.Placed Position.origin.place tokens :=
  Lexer.tokens_placed lexed

/-- The tokens of a source start at places in order. -/
theorem Token.lex_places {source : String} {tokens : List Token}
    (lexed : Token.lex source = .ok tokens) :
    tokens.Pairwise fun s t => s.span.place ≤ t.span.place :=
  (Token.lex_placed lexed).places

/-- The tokens of a source are in order. -/
theorem Token.lex_inOrder {source : String} {tokens : List Token}
    (lexed : Token.lex source = .ok tokens) : Token.InOrder 0 tokens :=
  Lexer.tokens_inOrder lexed

theorem Token.exists_of_isOk {source : String} (isOk : (Token.lex source).isOk = true) :
    ∃ tokens, Token.lex source = .ok tokens := by
  cases lexed : Token.lex source with
  | error fault =>
      rw [lexed] at isOk
      cases isOk
  | ok tokens => exact ⟨tokens, rfl⟩

end EntityFlow
