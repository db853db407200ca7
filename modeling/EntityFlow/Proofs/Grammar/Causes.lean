import Mathlib.Data.List.Pairwise
import EntityFlow.Proofs.Grammar.Limits

/-!
# Causes of error nodes

An error node is what is left of a construct that broke. While fewer faults are recorded than are
wanted, the fault at which it broke is among them (`Parse.exists_cause`). Its place need not be in
the range of the node: a recovery may stop at the very token that broke, be it the first one of
another line, the brace that closes the block, the start of another construct or the end token. Then
that token is the first one behind the node (`Node.CausedBy`).
-/

namespace EntityFlow

/-- The place of a fault lies in the range of a node, the ends of the range included. -/
def Node.Holds (n : Node) (f : Fault) : Prop := n.span.place ≤ f.place ∧ f.place ≤ n.span.endPlace

instance (n : Node) (f : Fault) : Decidable (n.Holds f) :=
  inferInstanceAs (Decidable (_ ∧ _))

/-- A node was given up because of a fault, which lies in its range or else is that of the first
token behind it. -/
inductive Node.CausedBy (tokens : List Token) (n : Node) (f : Fault) : Prop
  | inside (held : n.Holds f)
  | behind (next : (Token.behind n.span tokens).head? = some f.found)
      (apart : n.span.endPlace < f.place)

namespace Node

variable {tokens segment : List Token} {first last : Cursor} {lower : ℕ ×ₗ ℕ} {k : Kind}
  {parts : List Node}

theorem ofTokens_place (moves : first.Moves segment last) (on : first.On tokens)
    (ordered : Token.InOrder 0 tokens) :
    (ofTokens k first last parts).span.place = first.current.span.place := by
  cases segment with
  | nil =>
      rw [ofTokens_point moves, moves.eq_of_nil]
      rfl
  | cons t rest =>
      have tail := List.getLast?_eq_some_getLast (List.cons_ne_nil t rest)
      rw [ofTokens_span moves on ordered rfl tail, moves.current_eq rfl]
      rfl

/-- The tokens that a node is for start in its range. -/
theorem place_le_endPlace_of_mem {t : Token} (moves : first.Moves segment last)
    (on : first.On tokens) (ordered : Token.InOrder 0 tokens) (placed : Token.Placed lower tokens)
    (member : t ∈ segment) :
    t.span.place ≤ (ofTokens k first last parts).span.endPlace := by
  have some := List.ne_nil_of_mem member
  obtain ⟨front, toFirst⟩ := on
  have whole : tokens = (front ++ segment) ++ last.ahead := (toFirst.trans moves).ahead
  have within : segment.Sublist tokens := by
    rw [whole]
    exact (List.sublist_append_right front segment).trans (List.sublist_append_left _ _)
  rw [ofTokens_span moves ⟨front, toFirst⟩ ordered (List.head?_eq_some_head some)
    (List.getLast?_eq_some_getLast some)]
  have ends := placed.endPlaces.sublist within
  exact le_trans (placed.place_le t (within.subset member))
    (ends.rel_getLast_of_rel_getLast_getLast member (le_refl _))

end Node

/-- A construct that broke is given up because of its fault. -/
theorem Reads.causedBy {tokens : List Token} {lower : ℕ ×ₗ ℕ} {limit line : Nat} {g : Grammar}
    {r broken : Reading} {fault : Fault} (reads : Reads limit g line r (.broken fault broken))
    (how : Recovery) (on : r.cursor.On tokens) (ordered : Token.InOrder 0 tokens)
    (placed : Token.Placed lower tokens) :
    (Node.ofTokens .error r.cursor (broken.resumed limit how r.cursor fault) []).CausedBy
      tokens fault := by
  obtain ⟨taken, toBroken⟩ : ∃ taken, r.cursor.Moves taken broken.cursor := reads.moves
  obtain ⟨skipped, toResumed⟩ := broken.resumed_moves limit how r.cursor fault
  have moves := toBroken.trans toResumed
  have found := reads.found_eq
  have place : fault.place = broken.cursor.current.span.place := congrArg (·.span.place) found
  by_cases before : fault.place ≤
    (Node.ofTokens .error r.cursor (broken.resumed limit how r.cursor fault) []).span.endPlace
  · refine .inside ⟨?_, before⟩
    rw [Node.ofTokens_place moves on ordered, place]
    exact on.place_le placed.places toBroken
  · cases skipped with
    | cons t rest =>
        -- the token that broke was skipped
        have member : t ∈ taken ++ t :: rest := by simp
        rw [place, toResumed.current_eq rfl] at before
        exact absurd (Node.place_le_endPlace_of_mem moves on ordered placed member) before
    | nil =>
        -- the recovery stopped at once, so the token that broke is the one behind
        rw [List.append_nil] at moves
        by_cases some : taken = []
        · rw [some] at moves
          rw [Node.ofTokens_point moves, place, toResumed.eq_of_nil] at before
          exact absurd (le_refl _) before
        · have stops := (@Node.ofTokens_cover _ _ _ _ .error [] moves on ordered some).2
          have onLast := on.moves moves
          refine .behind ?_ (not_le.mp before)
          rw [onLast.behind_eq ordered stops, found, ← toResumed.eq_of_nil]
          exact Cursor.head?_ahead (onLast.ended ordered).ne_nil

/-- While fewer faults are recorded than are wanted, every error node has its cause among them. -/
theorem Parse.exists_cause (language : Language) (limit : Nat) {source : String}
    {tokens : List Token} (lexed : Token.lex source = .ok tokens)
    (fewer : (Parse.ofTokens language limit tokens).faults.length < max limit 1) :
    ∀ n ∈ (Parse.ofTokens language limit tokens).tree.subtrees, n.kind = .error →
      ∃ f ∈ (Parse.ofTokens language limit tokens).faults, n.CausedBy tokens f := by
  intro n member isError
  have ordered := Token.lex_inOrder lexed
  obtain ⟨last, faults, shaped⟩ := Parse.ofTokens_shaped language limit ordered.ended
  rw [faults] at fewer ⊢
  rcases Node.mem_subtrees_cases _ member with rfl | ⟨parent, inner, member⟩
  · exact absurd isError language.rootKind_ne_error
  · obtain ⟨g, shape, how, inside, among, line, r, fault, broken, reads, rfl, toR, noted⟩ :=
      (shaped parent inner).recovered member isError
    have fewerNoted := Nat.lt_of_le_of_lt noted.length_le fewer
    exact ⟨fault, noted.subset (Reading.mem_faults_record fewerNoted),
      reads.causedBy how toR ordered (Token.lex_placed lexed)⟩

end EntityFlow
