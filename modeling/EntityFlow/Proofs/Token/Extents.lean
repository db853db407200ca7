import Mathlib.Data.List.TakeWhile
import EntityFlow.Proofs.Text.Bytes
import EntityFlow.Proofs.Token.Scanning

/-!
# What tokens cover

The scanner cuts a source into tokens and into what stands between them, and leaves nothing out
(`Lexer.Sliced`, `Lexer.tokens_sliced`). From this follows where every token stands and what it
reads (`Token.lex_covers`): its text is the bytes of its span, its line and column are what one
counts in the text in front of it (`Position.behind`), and all that no token covers is blank or
comment (`Lexer.Skipped`).
-/

namespace EntityFlow

/-! ## Positions by counting -/

/-- The position behind the start of a source, by counting: its bytes, its line ends, and the
characters behind the last of them. -/
def Position.behind (front : List Char) : Position :=
  ⟨(String.ofList front).utf8ByteSize, 1 + front.count '\n',
    1 + (front.reverse.takeWhile (· != '\n')).length⟩

namespace Position

theorem offset_behind_append (front text : List Char) :
    (behind (front ++ text)).offset =
      (behind front).offset + (String.ofList text).utf8ByteSize :=
  Text.utf8ByteSize_ofList_append front text

theorem behind_concat (front : List Char) (c : Char) :
    behind (front ++ [c]) = (behind front).step c := by
  have offset : (behind (front ++ [c])).offset = (behind front).offset + c.utf8Size := by
    rw [offset_behind_append]
    simp
  unfold step
  split
  · rename_i lineEnd
    subst lineEnd
    rw [Position.mk.injEq]
    refine ⟨offset, ?_, ?_⟩
    · show 1 + (front ++ ['\n']).count '\n' = 1 + front.count '\n' + 1
      rw [List.count_append, List.count_singleton_self]
      omega
    · show 1 + ((front ++ ['\n']).reverse.takeWhile (· != '\n')).length = 1
      simp
  · rename_i proper
    rw [Position.mk.injEq]
    refine ⟨offset, ?_, ?_⟩
    · show 1 + (front ++ [c]).count '\n' = 1 + front.count '\n'
      rw [List.count_append, List.count_singleton, if_neg (by simpa using proper)]
      omega
    · show 1 + ((front ++ [c]).reverse.takeWhile (· != '\n')).length =
        1 + (front.reverse.takeWhile (· != '\n')).length + 1
      simp [proper]
      omega

/-- Moving on over a text and counting it agree. -/
theorem after_behind (front text : List Char) :
    (behind front).after text = behind (front ++ text) := by
  induction text generalizing front with
  | nil => rw [after_nil, List.append_nil]
  | cons c text ih =>
      rw [after_cons, ← behind_concat, ih, List.append_assoc]
      rfl

theorem origin_eq_behind : origin = behind [] := by decide

end Position

/-! ## The slices of a source -/

namespace Lexer

/-- The tokens of the rest of a source, behind the front. Each step goes on behind what it took:
what separates tokens, or a token with its text and its place. -/
inductive Sliced : List Char → List Char → List Token → Prop
  | done {front : List Char} :
      Sliced front [] [⟨.eof, "", Span.between (.behind front) (.behind front)⟩]
  | skip {front text more : List Char} {ts : List Token} (skipped : Skipped text more)
      (tail : Sliced (front ++ text) more ts) : Sliced front (text ++ more) ts
  | token {front text more : List Char} {ts : List Token} {kind : Token.Kind}
      (proper : kind ≠ .eof) (some : text ≠ []) (tail : Sliced (front ++ text) more ts) :
      Sliced front (text ++ more)
        (⟨kind, String.ofList text,
          Span.between (.behind front) (.behind (front ++ text))⟩ :: ts)

theorem tokens_sliced {front cs : List Char} {ts : List Token}
    (lexed : tokens (.behind front) cs = .ok ts) : Sliced front cs ts := by
  generalize place : Position.behind front = p at lexed
  -- along the text, with what has been read as the front
  induction p, cs using reading_induction generalizing front ts with
  | done p =>
      rw [tokens_nil] at lexed
      cases lexed
      rw [← place]
      exact .done
  | skip p text rest skipped ih =>
      rw [tokens_of_skipped skipped] at lexed
      rw [← place, Position.after_behind] at lexed ih
      exact .skip skipped (ih rfl lexed)
  | token p kind text rest found proper ih =>
      rw [tokens_of_matches found proper] at lexed
      obtain ⟨later, tail, rfl⟩ := of_tokens_token lexed
      rw [← place, Position.after_behind] at tail ih ⊢
      exact .token proper (found.ne_nil proper) (ih rfl tail)
  | fault p cause cs unended =>
      rw [tokens_of_unended unended] at lexed
      cases lexed

/-- The character behind `before`, in the text behind `front`, separates the tokens of this text: it
is blank, or one of a comment that no token reaches into. -/
def Separates (front rest : List Char) (ts : List Token) (before : List Char) (c : Char) : Prop :=
  Text.isBlank c = true ∨ ∃ pre text post, rest = pre ++ text ++ post ∧ Comment text post ∧
    pre.length ≤ before.length ∧ before.length < pre.length + text.length ∧
    ∀ t ∈ ts, t.span.stop ≤ (Position.behind (front ++ pre)).offset ∨
      (Position.behind (front ++ pre ++ text)).offset ≤ t.span.start

namespace Separates

variable {front text more before : List Char} {ts : List Token} {c : Char}

/-- What separates the tokens of a text still does so with more text in front of it, which may hold
further tokens. -/
theorem behind {us : List Token} (separates : Separates (front ++ text) more ts before c)
    (others : ∀ t ∈ us, t ∈ ts ∨ t.span.stop ≤ (Position.behind (front ++ text)).offset) :
    Separates front (text ++ more) us (text ++ before) c := by
  rcases separates with blank | ⟨pre, comment, post, split, whole, starts, ends, away⟩
  · exact .inl blank
  · refine .inr ⟨text ++ pre, comment, post, ?_, whole, ?_, ?_, ?_⟩
    · rw [split]
      simp
    · rw [List.length_append, List.length_append]
      omega
    · rw [List.length_append, List.length_append]
      omega
    · rw [← List.append_assoc]
      intro t member
      rcases others t member with known | stops
      · exact away t known
      · left
        rw [Position.offset_behind_append (front ++ text)]
        omega

end Separates

/-- A character of an appended text lies in its first or in its second part. -/
theorem append_eq_append_cons {first second pre back : List Char} {c : Char}
    (equal : first ++ second = pre ++ c :: back) :
    (∃ inner, pre = first ++ inner ∧ second = inner ++ c :: back) ∨
      ∃ inner, first = pre ++ c :: inner ∧ back = inner ++ second := by
  rcases List.append_eq_append_iff.mp equal with ⟨inner, rfl, rfl⟩ | ⟨inner, rfl, rest⟩
  · exact .inl ⟨inner, rfl, rfl⟩
  · cases inner with
    | nil => exact .inl ⟨[], by simp, rest.symm⟩
    | cons d inner =>
        obtain ⟨rfl, rfl⟩ := List.cons.inj rest
        exact .inr ⟨inner, rfl, rfl⟩

namespace Sliced

variable {front rest : List Char} {ts : List Token}

/-- Every token stands where its span says, and reads what stands there. -/
theorem places (sliced : Sliced front rest ts) : ∀ t ∈ ts, ∃ before back,
    front ++ rest = before ++ t.text.toList ++ back ∧
      t.span = Span.between (.behind before) (.behind (before ++ t.text.toList)) := by
  induction sliced with
  | @done front =>
      intro t member
      rw [List.mem_singleton.mp member]
      exact ⟨front, [], by simp, by simp⟩
  | @skip front text more ts skipped tail ih =>
      rw [← List.append_assoc]
      exact ih
  | @token front text more ts kind proper some tail ih =>
      rw [← List.append_assoc, List.forall_mem_cons]
      refine ⟨⟨front, more, ?_, ?_⟩, ih⟩
      · rw [String.toList_ofList]
      · rw [String.toList_ofList]

/-- The end token stands behind the whole source. -/
theorem last (sliced : Sliced front rest ts) : ts.getLast? =
    some ⟨.eof, "", Span.between (.behind (front ++ rest)) (.behind (front ++ rest))⟩ := by
  induction sliced with
  | done => rw [List.append_nil, List.getLast?_singleton]
  | skip skipped tail ih => rw [← List.append_assoc, ih]
  | token proper some tail ih =>
      rw [← List.append_assoc, List.getLast?_cons, ih]
      rfl

/-- The tokens of the rest start behind the front. -/
theorem offset_le_start (sliced : Sliced front rest ts) :
    ∀ t ∈ ts, (Position.behind front).offset ≤ t.span.start := by
  induction sliced with
  | done =>
      intro t member
      rw [List.mem_singleton.mp member]
      exact Nat.le_refl _
  | skip skipped tail ih =>
      intro t member
      have starts := ih t member
      rw [Position.offset_behind_append] at starts
      omega
  | token proper some tail ih =>
      rw [List.forall_mem_cons]
      refine ⟨Nat.le_refl _, ?_⟩
      intro t member
      have starts := ih t member
      rw [Position.offset_behind_append] at starts
      omega

/-- A character that no token covers separates them. -/
theorem separates (sliced : Sliced front rest ts) {before back : List Char} {c : Char}
    (whole : rest = before ++ c :: back)
    (outside : ∀ t ∈ ts, ¬ (t.span.start ≤ (Position.behind (front ++ before)).offset ∧
      (Position.behind (front ++ before)).offset < t.span.stop)) :
    Separates front rest ts before c := by
  induction sliced generalizing before with
  | done => simp at whole
  | @skip front text more ts skipped tail ih =>
      rcases append_eq_append_cons whole with ⟨inner, rfl, more_eq⟩ | ⟨inner, text_eq, -⟩
      · rw [← List.append_assoc] at outside
        exact (ih more_eq outside).behind fun t member => .inl member
      · -- the character lies in what is skipped
        cases skipped with
        | blank blank =>
            obtain ⟨-, only⟩ | ⟨-, absurd⟩ := List.append_eq_singleton_iff.mp text_eq.symm
            · obtain ⟨rfl, -⟩ := List.cons.inj only
              exact .inl blank
            · cases absurd
        | comment comment =>
            refine .inr ⟨[], text, more, rfl, comment, Nat.zero_le _, ?_, ?_⟩
            · rw [text_eq]
              simp
            · intro t member
              rw [List.append_nil]
              exact .inr (tail.offset_le_start t member)
  | @token front text more ts kind proper some tail ih =>
      rw [List.forall_mem_cons] at outside
      obtain ⟨notHere, outside⟩ := outside
      rcases append_eq_append_cons whole with ⟨inner, rfl, more_eq⟩ | ⟨inner, text_eq, -⟩
      · rw [← List.append_assoc] at outside
        apply (ih more_eq outside).behind
        rw [List.forall_mem_cons]
        exact ⟨.inr (Nat.le_refl _), fun t member => .inl member⟩
      · -- the character lies in the token
        exfalso
        apply notHere
        show (Position.behind front).offset ≤ _ ∧ _ < (Position.behind (front ++ text)).offset
        have positive := c.utf8Size_pos
        rw [text_eq, ← List.append_assoc, Position.offset_behind_append (front ++ before),
          Position.offset_behind_append front]
        simp
        omega

end Sliced

end Lexer

/-! ## The tokens of a source -/

/-- The bytes of a source between two places are the text that stands there. -/
theorem Position.extract_behind {source : String} {before text back : List Char}
    (split : source.toList = before ++ text ++ back) :
    source.toUTF8.extract (behind before).offset (behind (before ++ text)).offset =
      (String.ofList text).toUTF8 :=
  Text.extract_toUTF8 split

namespace Token

/-- How tokens cover a source. -/
structure Covers (source : String) (tokens : List Token) : Prop where
  /-- The end token is the last one: empty, without text, behind the whole source. -/
  last : tokens.getLast? =
    some ⟨.eof, "", Span.between (.behind source.toList) (.behind source.toList)⟩
  /-- It is the only one of its kind. -/
  proper : ∀ t ∈ tokens.dropLast, t.kind ≠ .eof
  /-- Every other token covers some bytes of the source. -/
  some : ∀ t ∈ tokens.dropLast, t.span.start < t.span.stop
  /-- The text of a token is the bytes that it covers. -/
  bytes : ∀ t ∈ tokens, source.toUTF8.extract t.span.start t.span.stop = t.text.toUTF8
  /-- The spans are in order and have nothing in common. -/
  apart : tokens.Pairwise fun s t => s.span.stop ≤ t.span.start
  /-- Offsets, lines and columns are those that one counts in the source in front of the place. -/
  places : ∀ t ∈ tokens, ∃ before back,
    source.toList = before ++ t.text.toList ++ back ∧
      t.span = Span.between (.behind before) (.behind (before ++ t.text.toList))
  /-- A character that no token covers is blank or one of a comment. -/
  outside : ∀ before c back, source.toList = before ++ c :: back →
    (∀ t ∈ tokens, ¬ (t.span.start ≤ (Position.behind before).offset ∧
      (Position.behind before).offset < t.span.stop)) →
    Lexer.Separates [] source.toList tokens before c

/-- **The tokens of a source cover it.** -/
theorem lex_covers {source : String} {tokens : List Token} (lexed : lex source = .ok tokens) :
    Covers source tokens := by
  have ordered := lex_inOrder lexed
  have sliced : Lexer.Sliced [] source.toList tokens := by
    apply Lexer.tokens_sliced
    rw [← Position.origin_eq_behind]
    exact lexed
  have proper (t : Token) (member : t ∈ tokens.dropLast) : t.kind ≠ .eof :=
    ordered.ended.proper_of_mem_dropLast member
  refine ⟨sliced.last, proper, ?_, ?_, ordered.arranged.apart, sliced.places, ?_⟩
  · intro t member
    exact ordered.arranged.start_lt t (List.dropLast_subset _ member) (proper t member)
  · intro t member
    obtain ⟨before, back, split, span⟩ := sliced.places t member
    rw [span]
    have bytes := Position.extract_behind split
    rwa [String.ofList_toList] at bytes
  · intro before c back whole outside
    exact sliced.separates whole outside

/-- Letters of two bytes, a comment of each kind, and a text over two lines. -/
theorem lex_covers_twoLines :
    lex "é // c\n'a\\\nb'/*d*/ñ" = .ok [⟨.word, "é", ⟨0, 2, 1, 1, 1, 2⟩⟩,
        ⟨.singleQuoted, "'a\\\nb'", ⟨8, 14, 2, 1, 3, 3⟩⟩, ⟨.word, "ñ", ⟨19, 21, 3, 8, 3, 9⟩⟩,
        ⟨.eof, "", ⟨21, 21, 3, 9, 3, 9⟩⟩] ∧
      Covers "é // c\n'a\\\nb'/*d*/ñ" [⟨.word, "é", ⟨0, 2, 1, 1, 1, 2⟩⟩,
        ⟨.singleQuoted, "'a\\\nb'", ⟨8, 14, 2, 1, 3, 3⟩⟩, ⟨.word, "ñ", ⟨19, 21, 3, 8, 3, 9⟩⟩,
        ⟨.eof, "", ⟨21, 21, 3, 9, 3, 9⟩⟩] := by
  have lexed : lex "é // c\n'a\\\nb'/*d*/ñ" = .ok [⟨.word, "é", ⟨0, 2, 1, 1, 1, 2⟩⟩,
      ⟨.singleQuoted, "'a\\\nb'", ⟨8, 14, 2, 1, 3, 3⟩⟩, ⟨.word, "ñ", ⟨19, 21, 3, 8, 3, 9⟩⟩,
      ⟨.eof, "", ⟨21, 21, 3, 9, 3, 9⟩⟩] := by decide +kernel
  exact ⟨lexed, lex_covers lexed⟩

end Token

end EntityFlow
