import EntityFlow.Proofs.Grammar.Cover
import EntityFlow.Proofs.Grammar.Shapes

/-!
# Trees of sources

The tree of a source is a faithful picture of its tokens (`Parse.tree_faithful`). Besides what holds
of its nodes one by one, no token is lost: whatever the grammar of a source takes becomes part of a
node, which `Grammar.tiles` checks. A token without a node of its own would have to be taken outside
of every construct, and a language has no such place.
-/

namespace EntityFlow

namespace Grammar

/-- Whether every token that is taken becomes part of a node. -/
def tiles : Grammar → Bool
  | .done => true
  | .take => false
  | .fail _ => true
  | .seq first second => first.tiles && second.tiles
  | .choose _ yes no => yes.tiles && no.tiles
  | .many _ item => item.tiles
  | .node _ cases otherwise body => otherwise.isSome || alwaysPicks cases body
  | .last _ => false
  | .atLeastOne _ g => g.tiles
  | .markLine g => g.tiles
  | .recovering _ g => g.tiles
  | .call _ => false

end Grammar

theorem Language.grammar_tiles (language : Language) : language.grammar.tiles = true := by
  cases language with
  | entity => decide
  | flow => decide

theorem Language.grammar_snug (language : Language) : language.grammar.snug false = true := by
  cases language with
  | entity => decide
  | flow => decide

/-- A node contains the tokens it was read from. -/
theorem Node.ofTokens_contains {tokens segment : List Token} {first last : Cursor} {t : Token}
    (k : Node.Kind) (parts : List Node) (moves : first.Moves segment last)
    (on : first.On tokens) (ordered : Token.InOrder 0 tokens) (member : t ∈ segment) :
    (Node.ofTokens k first last parts).span.contains t.span = true := by
  obtain ⟨starts, stops⟩ :=
    @Node.ofTokens_cover tokens segment first last k parts moves on ordered
      (List.ne_nil_of_mem member)
  rw [Span.contains_iff, starts, stops]
  exact moves.bounds on ordered member

/-- Tokens that two steps in a row take lie in the nodes of one of them. -/
theorem tile_append {tokens : List Token} {first middle last : Cursor} {ms ns : List Node}
    {t : Token} (on : first.On tokens) (toMiddle : ∃ segment, first.Moves segment middle)
    (toLast : ∃ segment, middle.Moves segment last)
    (front : ∀ t ∈ first.taken middle, ∃ n ∈ ms, n.span.contains t.span = true)
    (back : middle.On tokens → ∀ t ∈ middle.taken last, ∃ n ∈ ns, n.span.contains t.span = true)
    (member : t ∈ first.taken last) : ∃ n ∈ ms ++ ns, n.span.contains t.span = true := by
  obtain ⟨one, toMiddle⟩ := toMiddle
  obtain ⟨two, toLast⟩ := toLast
  rw [(toMiddle.trans toLast).taken] at member
  rw [toMiddle.taken] at front
  rw [toLast.taken] at back
  rcases List.mem_append.mp member with member | member
  · obtain ⟨n, inner, contains⟩ := front t member
    exact ⟨n, List.mem_append_left _ inner, contains⟩
  · obtain ⟨n, inner, contains⟩ := back (on.moves toMiddle) t member
    exact ⟨n, List.mem_append_right _ inner, contains⟩

namespace Reads

variable {tokens : List Token} {limit line : Nat} {g : Grammar} {r next : Reading} {ns : List Node}

/-- What a grammar that tiles takes lies in the nodes that it yields. -/
theorem tile (ordered : Token.InOrder 0 tokens) (reads : Reads limit g line r (.nodes ns next))
    (on : r.cursor.On tokens) (tiles : g.tiles = true) :
    ∀ t ∈ r.cursor.taken next.cursor, ∃ n ∈ ns, n.span.contains t.span = true := by
  induction reads using Reads.succeeds with
  | @done line r =>
      intro t member
      rw [(Cursor.Moves.refl r.cursor).taken] at member
      cases member
  | take => cases tiles
  | seq one two ihOne ihTwo =>
      intro t member
      obtain ⟨tilesOne, tilesTwo⟩ := Bool.and_eq_true_iff.mp tiles
      exact tile_append on one.moves two.moves (ihOne on tilesOne)
        (fun onNext => ihTwo onNext tilesTwo) member
  | yes _ _ ih => exact ih on (Bool.and_eq_true_iff.mp tiles).1
  | no _ _ ih => exact ih on (Bool.and_eq_true_iff.mp tiles).2
  | @stop look item line r =>
      intro t member
      rw [(Cursor.Moves.refl r.cursor).taken] at member
      cases member
  | more _ one rest ihOne ihRest =>
      intro t member
      exact tile_append on one.moves rest.moves (ihOne on tiles)
        (fun onNext => ihRest onNext tiles) member
  | @node lead cases otherwise body line r ns next more last readsLead readsBody _ _ =>
      intro t member
      obtain ⟨_, toNext⟩ := readsLead.moves
      obtain ⟨_, toLast⟩ := readsBody.moves
      have moves : r.cursor.Moves _ last.cursor := toNext.trans toLast
      have picked : ∃ k, Grammar.pick line next.cursor otherwise cases = some k := by
        rcases Bool.or_eq_true_iff.mp tiles with always | always
        · rcases Grammar.pick_eq_or next.cursor with same | ⟨k, _, equal⟩
          · rw [same]
            exact Option.isSome_iff_exists.mp always
          · exact ⟨k, equal⟩
        · exact Option.isSome_iff_exists.mp (Grammar.pick_isSome_of_alwaysPicks always readsBody)
      obtain ⟨k, picked⟩ := picked
      rw [moves.taken] at member
      rw [picked]
      exact ⟨_, List.mem_cons_self, Node.ofTokens_contains k _ moves on ordered member⟩
  | last => cases tiles
  | atLeastOne _ _ ih => exact ih on tiles
  | markLine _ ih => exact ih on tiles
  | intact _ ih => exact ih on tiles
  | @recovered how g line r fault next broken =>
      intro t member
      obtain ⟨_, toNext⟩ := broken.moves
      obtain ⟨_, toResumed⟩ := next.resumed_moves limit how r.cursor fault
      have moves := toNext.trans toResumed
      rw [moves.taken] at member
      exact ⟨_, List.mem_cons_self, Node.ofTokens_contains .error [] moves on ordered member⟩
  | call => cases tiles

end Reads

namespace Node

/-- Nodes apart from each other hold a token at most once. -/
theorem countP_contains_le_one {s : Span} {ns : List Node} (some : s.start < s.stop)
    (apart : ns.Pairwise fun a b => a.span.stop ≤ b.span.start) :
    (ns.countP fun n => n.span.contains s) ≤ 1 := by
  induction ns with
  | nil => exact Nat.zero_le _
  | cons n rest ih =>
      obtain ⟨after, apartRest⟩ := List.pairwise_cons.mp apart
      rw [List.countP_cons]
      split
      · rename_i inside
        rw [Span.contains_iff] at inside
        have none : (rest.countP fun n => n.span.contains s) = 0 := by
          refine List.countP_eq_zero.mpr ?_
          intro m member within
          rw [Span.contains_iff] at within
          have := after m member
          omega
        omega
      · exact ih apartRest

end Node

/-- The tree of a source is a faithful picture of its tokens: every node shows the tokens in its
span and has its parts in it, in order and apart, and every proper token lies in exactly one part of
the root. -/
theorem Parse.tree_faithful (language : Language) (limit : Nat) {source : String}
    {tokens : List Token} (lexed : Token.lex source = .ok tokens) :
    ∃ p, Parse.ofSource? language limit source = .ok p ∧
      (∀ n ∈ p.tree.subtrees, n.Faithful tokens) ∧
      ∀ t ∈ tokens, t.kind ≠ .eof →
        (p.tree.children.countP fun n => n.span.contains t.span) = 1 := by
  have ordered := Token.lex_inOrder lexed
  have on := Cursor.on_start tokens
  obtain ⟨ns, last, reads, atEnd, equal⟩ := Parse.ofTokens_reads language limit ordered.ended
  obtain ⟨segment, moves⟩ : ∃ segment, (Cursor.start tokens).Moves segment last.cursor :=
    reads.moves
  have unknown : false = true → (Cursor.start tokens).Proper := nofun
  obtain ⟨covered, snug⟩ := reads.cover ordered on language.grammar_fits unknown
  have root : Covered tokens (Cursor.start tokens) [Node.ofTokens language.rootKind _ _ ns] _ :=
    covered.node moves on ordered (snug language.grammar_snug)
  refine ⟨Parse.ofTokens language limit tokens, Parse.ofSource?_of_lex lexed language limit, ?_, ?_⟩
  · intro n member
    rw [equal] at member
    exact root.faithful n (Node.mem_subtreesOf.mpr ⟨_, List.mem_cons_self, member⟩)
  · intro t member proper
    rw [equal]
    show (ns.countP fun n => n.span.contains t.span) = 1
    have whole : tokens = segment ++ last.cursor.ahead := moves.ahead
    have endedLast : Token.Ended last.cursor.ahead := reads.ended ordered.ended
    have taken : t ∈ segment := by
      rw [whole, Cursor.ahead_eq_of_eof endedLast atEnd] at member
      rcases List.mem_append.mp member with member | member
      · exact member
      · rw [List.mem_singleton.mp member] at proper
        exact absurd atEnd proper
    -- the parts are apart, so none but one of them holds the token; they tile, so one of them does
    have atMost := Node.countP_contains_le_one (ordered.arranged.start_lt t member proper)
      covered.placed.pairwise
    have atLeast : 0 < ns.countP fun n => n.span.contains t.span := by
      refine List.countP_pos_iff.mpr ?_
      refine reads.tile ordered on language.grammar_tiles t ?_
      show t ∈ (Cursor.start tokens).taken last.cursor
      rw [moves.taken]
      exact taken
    omega

/-- A source with a broken field. -/
theorem Parse.tree_faithful_broken_field :
    ∃ tokens p, Token.lex "entity A \x7b 1 b C \x7d" = .ok tokens ∧
      Parse.ofSource? .entity 10 "entity A \x7b 1 b C \x7d" = .ok p ∧
      (∀ n ∈ p.tree.subtrees, n.Faithful tokens) ∧
      ∀ t ∈ tokens, t.kind ≠ .eof →
        (p.tree.children.countP fun n => n.span.contains t.span) = 1 := by
  obtain ⟨tokens, lexed⟩ : ∃ tokens, Token.lex "entity A \x7b 1 b C \x7d" = .ok tokens :=
    Token.exists_of_isOk (by decide +kernel)
  obtain ⟨p, parsed, faithful⟩ := Parse.tree_faithful .entity 10 lexed
  exact ⟨tokens, p, lexed, parsed, faithful⟩

end EntityFlow
