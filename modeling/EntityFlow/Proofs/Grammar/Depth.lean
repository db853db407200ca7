import EntityFlow.Proofs.Grammar.Errors
import EntityFlow.Proofs.Grammar.Placement

/-!
# Brace depth of recoveries

A recovery inside a block skips to the end of the line, nested blocks whole, and so leaves as many
braces open as were open where it began: `Recovery.toLine_nested`. It begins where the item broke,
not where the item started. An item that broke after braces of its own were opened is therefore
given up with these braces open (`Parse.recovery_depth_open_brace`), and the closing brace of the
item is taken for that of the block. `Parse.recovery_depth` says exactly when that is so.
-/

namespace EntityFlow

namespace Token

/-- Whether the braces among some tokens are nested: `depth` of them are open before, and none is
open after them. -/
def nested : Nat → List Token → Bool
  | depth, [] => depth == 0
  | depth, t :: rest =>
      match t.kind with
      | .lBrace => nested (depth + 1) rest
      | .rBrace => depth != 0 && nested (depth - 1) rest
      | _ => nested depth rest

/-- As many braces are opened as closed. -/
def Paired (tokens : List Token) : Prop :=
  tokens.countP (·.kind == .lBrace) = tokens.countP (·.kind == .rBrace)

instance (tokens : List Token) : Decidable (Paired tokens) :=
  inferInstanceAs (Decidable (_ = _))

theorem count_of_nested {depth : Nat} {tokens : List Token} (nested : nested depth tokens = true) :
    depth + tokens.countP (·.kind == .lBrace) = tokens.countP (·.kind == .rBrace) := by
  fun_induction Token.nested depth tokens with
  | case1 depth => simpa using nested
  | case2 depth t rest isOpen ih =>
      have tail := ih nested
      simp only [List.countP_cons, isOpen]
      simp only [beq_self_eq_true, if_true, reduceCtorEq, beq_iff_eq, if_false]
      omega
  | case3 depth t rest isClose ih =>
      obtain ⟨some, nestedRest⟩ := Bool.and_eq_true_iff.mp nested
      have tail := ih nestedRest
      have positive : depth ≠ 0 := by simpa using some
      simp only [List.countP_cons, isClose]
      simp only [beq_self_eq_true, if_true, reduceCtorEq, beq_iff_eq, if_false]
      omega
  | case4 depth t rest notOpen notClose ih =>
      have tail := ih nested
      simp only [List.countP_cons, beq_iff_eq]
      rw [if_neg notOpen, if_neg notClose]
      exact tail

/-- Nested braces do not tell whether the braces before them are paired. -/
theorem paired_append_nested {front back : List Token} (nested : nested 0 back = true) :
    Paired (front ++ back) ↔ Paired front := by
  have := count_of_nested nested
  unfold Paired
  rw [List.countP_append, List.countP_append]
  omega

end Token

/-- One more token in front of skipped ones. -/
theorem Recovery.moves_cons_nested {depth next : Nat} {before : Option Token} {t u : Token}
    {rest : List Token} {last : Cursor}
    (tail : ∃ segment, (Cursor.mk (some t) (u :: rest)).Moves segment last ∧
      (last.current.kind = .eof ∨ Token.nested next segment = true))
    (nested : ∀ segment, Token.nested next segment = true →
      Token.nested depth (t :: segment) = true) :
    ∃ segment, (Cursor.mk before (t :: u :: rest)).Moves segment last ∧
      (last.current.kind = .eof ∨ Token.nested depth segment = true) := by
  obtain ⟨segment, moves, outcome⟩ := tail
  have step : (Cursor.mk before (t :: u :: rest)).Moves [t] (Cursor.mk (some t) (u :: rest)) :=
    ⟨rfl, rfl, fun _ => List.cons_ne_nil _ _⟩
  exact ⟨[t] ++ segment, step.trans moves, outcome.imp id (nested segment)⟩

/-- A recovery to the end of the line skips nested braces, unless it reaches the end token. -/
theorem Recovery.toLine_nested (depth : Nat) (before : Option Token) {ahead : List Token}
    (ended : Token.Ended ahead) :
    ∃ segment, (Cursor.mk before ahead).Moves segment (toLine depth before ahead) ∧
      ((toLine depth before ahead).current.kind = .eof ∨ Token.nested depth segment = true) := by
  fun_induction toLine depth before ahead with
  | case1 depth before t u rest atEnd => exact ⟨[], .refl _, Or.inl atEnd⟩
  | case2 before t u rest isClose => exact ⟨[], .refl _, Or.inr rfl⟩
  | case3 depth before t u rest isClose some ih =>
      refine moves_cons_nested (ih ended.2) ?_
      intro segment nested
      simp only [Token.nested, isClose, Bool.and_eq_true]
      exact ⟨by simpa using some, nested⟩
  | case4 depth before t u rest isOpen ih =>
      refine moves_cons_nested (ih ended.2) ?_
      intro segment nested
      simp only [Token.nested, isOpen]
      exact nested
  | case5 depth before t u rest stops =>
      refine ⟨[], .refl _, Or.inr ?_⟩
      rw [stops.1]
      rfl
  | case6 depth before t u rest _ _ _ _ ih =>
      refine moves_cons_nested (ih ended.2) ?_
      intro segment nested
      simp only [Token.nested]
      exact nested
  | case7 depth before ahead short =>
      cases ahead with
      | nil => cases ended
      | cons t later =>
          cases later with
          | nil => exact ⟨[], .refl _, Or.inl ended⟩
          | cons u rest => exact absurd rfl (short t u rest)

/-! ## Items given up -/

namespace Node

/-- No proper token stands behind the node. -/
def ReachesEnd (tokens : List Token) (n : Node) : Prop :=
  ∀ t ∈ tokens, t.kind ≠ .eof → t.span.stop ≤ n.span.stop

instance (tokens : List Token) (n : Node) : Decidable (n.ReachesEnd tokens) :=
  inferInstanceAs (Decidable (∀ _ ∈ _, _))

/-- An item that was given up at a fault: it had taken the tokens `front`, and `back` was skipped.
Its first token is always taken, even if the item broke there. -/
structure GivenUp (tokens : List Token) (fault : Fault) (front back : List Token) (item : Node) :
    Prop where
  split : Token.within item.span tokens = front ++ back
  some : front ≠ []
  broke : front = [fault.found] ∨
    (back ++ Token.behind item.span tokens).head? = Option.some fault.found
  skipped : Token.nested 0 back = true

end Node

/-- A construct breaks in front of the token that its fault names. -/
theorem Reads.found_eq {limit line : Nat} {g : Grammar} {r broken : Reading} {fault : Fault}
    (reads : Reads limit g line r (.broken fault broken)) :
    fault.found = broken.cursor.current := by
  generalize outcome : Outcome.broken fault broken = o at reads
  induction reads with
  | fail =>
      cases outcome
      rfl
  | seq _ _ _ ihSecond => exact ihSecond (Outcome.after_eq_broken outcome.symm).symm
  | seqBroken _ ih => exact ih outcome
  | yes _ _ ih => exact ih outcome
  | no _ _ ih => exact ih outcome
  | more _ _ _ _ ihMore => exact ihMore (Outcome.after_eq_broken outcome.symm).symm
  | moreBroken _ _ ih => exact ih outcome
  | leadBroken _ ih => exact ih outcome
  | bodyBroken _ _ _ ih => exact ih outcome
  | lastBroken _ ih => exact ih outcome
  | noneFound =>
      cases outcome
      rfl
  | atLeastOneBroken _ ih => exact ih outcome
  | markLine _ ih => exact ih outcome
  | @recovered how g line r fault next _ _ =>
      rw [Reading.recover_eq] at outcome
      cases outcome
  | call _ ih => exact ih outcome
  | _ => cases outcome

/-- A node up to the end token reaches the end. -/
theorem Node.reachesEnd {tokens segment : List Token} {first last : Cursor} {k : Kind}
    {parts : List Node} (moves : first.Moves segment last) (on : first.On tokens)
    (ordered : Token.InOrder 0 tokens) (atEnd : last.current.kind = .eof) :
    (Node.ofTokens k first last parts).ReachesEnd tokens := by
  have onLast := on.moves moves
  have ⟨front, toLast⟩ := onLast
  have whole : tokens = front ++ last.ahead := toLast.ahead
  intro t member proper
  have inFront : t ∈ front := by
    rw [whole, Cursor.ahead_eq_of_eof (onLast.ended ordered) atEnd] at member
    rcases List.mem_append.mp member with member | member
    · exact member
    · rw [List.mem_singleton.mp member] at proper
      exact absurd atEnd proper
  cases segment with
  | nil =>
      rw [Node.ofTokens_point moves]
      exact onLast.stop_le_of_mem ordered whole inFront
  | cons x rest =>
      rw [(Node.ofTokens_cover moves on ordered (List.cons_ne_nil _ _)).2]
      exact onLast.stop_le_stopsAt ordered whole inFront

/-- What an item has taken when its recovery begins: what it took until it broke, or else its first
token. -/
theorem Recovery.restart_front {segment : List Token} {first broken : Cursor}
    (moves : first.Moves segment broken) (ended : Token.Ended broken.ahead)
    (proper : broken.current.kind ≠ .eof) :
    ∃ front, first.Moves front (restart first broken) ∧ front ≠ [] ∧
      (front = [broken.current] ∨ restart first broken = broken) := by
  unfold restart
  split
  · rename_i same
    have count := moves.remaining
    have none : segment = [] := List.length_eq_zero_iff.mp (by omega)
    rw [none] at moves
    have step := Cursor.advance_moves_current ended proper
    exact ⟨[] ++ [broken.current], moves.trans step, by simp, Or.inl rfl⟩
  · rename_i different
    refine ⟨segment, moves, ?_, Or.inr rfl⟩
    intro none
    rw [none] at moves
    rw [moves.eq_of_nil] at different
    exact different rfl

/-- An item of a block that broke before as many faults were recorded as wanted reaches the end, or
it was given up at the fault. -/
theorem Reads.givenUp {tokens : List Token} {limit line : Nat} {g : Grammar} {r broken : Reading}
    {fault : Fault} (ordered : Token.InOrder 0 tokens)
    (reads : Reads limit g line r (.broken fault broken)) (on : r.cursor.On tokens)
    (fewer : (broken.record limit fault).faults.length < limit) :
    let item := Node.ofTokens .error r.cursor (broken.resumed limit .line r.cursor fault) []
    item.ReachesEnd tokens ∨ ∃ front back, item.GivenUp tokens fault front back := by
  intro item
  obtain ⟨taken, toBroken⟩ : ∃ taken, r.cursor.Moves taken broken.cursor := reads.moves
  obtain ⟨_, toResumed⟩ := broken.resumed_moves limit .line r.cursor fault
  have toLast := toBroken.trans toResumed
  have endedBroken := (on.moves toBroken).ended ordered
  have resumed : broken.resumed limit .line r.cursor fault =
      Recovery.resume .line r.cursor broken.cursor := if_pos fewer
  by_cases atEnd : (broken.resumed limit .line r.cursor fault).current.kind = .eof
  · exact Or.inl (Node.reachesEnd toLast on ordered atEnd)
  · -- the item did not break at the end token, which cannot be passed
    have proper : broken.cursor.current.kind ≠ .eof := by
      intro brokeAtEnd
      rw [toResumed.eq_of_eof endedBroken brokeAtEnd] at atEnd
      exact atEnd brokeAtEnd
    obtain ⟨front, toRestart, some, broke⟩ := Recovery.restart_front toBroken endedBroken proper
    have endedRestart := (on.moves toRestart).ended ordered
    obtain ⟨back, fromRestart, outcome⟩ := Recovery.toLine_nested 0 _ endedRestart
    rw [Recovery.resume_eq] at resumed
    dsimp only at resumed
    rw [← resumed] at fromRestart outcome
    have moves := toRestart.trans fromRestart
    have onLast := on.moves moves
    have taken : front ++ back ≠ [] := by simp [some]
    obtain ⟨starts, stops⟩ := @Node.ofTokens_cover _ _ _ _ .error [] moves on ordered taken
    refine Or.inr ⟨front, back, ?_, some, ?_, outcome.resolve_left atEnd⟩
    · rw [moves.within_eq on ordered taken starts stops,
        onLast.within_ahead_eq_nil ordered stops atEnd, List.append_nil]
    · rw [reads.found_eq]
      rcases broke with first | same
      · exact Or.inl first
      · refine Or.inr ?_
        have ahead := fromRestart.ahead
        rw [onLast.behind_eq ordered stops, ← ahead, same]
        exact Cursor.head?_ahead endedBroken.ne_nil

theorem Language.shapes_recoveries (language : Language) :
    (language.shapes.all fun shape =>
      shape.1 == language.rootKind || shape.2.recoveries.all (·.1 == .line)) = true := by
  cases language with
  | entity => decide
  | flow => decide

/-- Every item of a block that was given up before as many faults were recorded as wanted reaches
the end, or it was given up at a recorded fault. In that case its braces are paired if and only if
those are that it had taken when its recovery began. -/
theorem Parse.recovery_depth (language : Language) (limit : Nat) {source : String}
    {tokens : List Token} (lexed : Token.lex source = .ok tokens) :
    ∃ p, Parse.ofSource? language limit source = .ok p ∧
      (p.faults.length < max limit 1 →
        ∀ n ∈ Node.subtreesOf p.tree.children, ∀ item ∈ n.children, item.kind = .error →
          item.ReachesEnd tokens ∨
            ∃ fault ∈ p.faults, ∃ front back, item.GivenUp tokens fault front back ∧
              (Token.Paired (Token.within item.span tokens) ↔ Token.Paired front)) := by
  have ordered := Token.lex_inOrder lexed
  refine ⟨Parse.ofTokens language limit tokens, Parse.ofSource?_of_lex lexed language limit, ?_⟩
  intro fewer n below item member isError
  obtain ⟨last, faults, shaped⟩ := Parse.ofTokens_shaped language limit ordered.ended
  obtain ⟨g, shape, how, inner, among, line, r, fault, broken, reads, equal, toR, noted⟩ :=
    (shaped n (Node.mem_subtrees_of_below below)).recovered member isError
  have byLine : how = .line := by
    have check := List.all_eq_true.mp language.shapes_recoveries _ shape
    rcases Bool.or_eq_true_iff.mp check with root | lines
    · exact absurd (beq_iff_eq.mp root) (Parse.kind_ne_rootKind language limit ordered.ended below)
    · exact beq_iff_eq.mp (List.all_eq_true.mp lines _ among)
  subst byLine
  rw [faults] at fewer ⊢
  have fewerNoted : (broken.record (max limit 1) fault).faults.length < max limit 1 :=
    Nat.lt_of_le_of_lt noted.length_le fewer
  rcases reads.givenUp ordered toR fewerNoted with atEnd | ⟨front, back, givenUp⟩
  · rw [equal]
    exact Or.inl atEnd
  · rw [← equal] at givenUp
    refine Or.inr ⟨fault, noted.subset (Reading.mem_faults_record fewerNoted), front, back,
      givenUp, ?_⟩
    rw [givenUp.split]
    exact Token.paired_append_nested givenUp.skipped

/-- A block of relationships of which the first one breaks inside its braces. -/
def Parse.brokenRelationship : String :=
  "relationship OneToMany \x7b\n  A\x7b1\x7d to B\n  C to D\n\x7d\n"

theorem Parse.recovery_depth_relationship :
    ∃ tokens p, Token.lex Parse.brokenRelationship = .ok tokens ∧
      Parse.ofSource? .entity 10 Parse.brokenRelationship = .ok p ∧
      (p.faults.length < max 10 1 →
        ∀ n ∈ Node.subtreesOf p.tree.children, ∀ item ∈ n.children, item.kind = .error →
          item.ReachesEnd tokens ∨
            ∃ fault ∈ p.faults, ∃ front back, item.GivenUp tokens fault front back ∧
              (Token.Paired (Token.within item.span tokens) ↔ Token.Paired front)) := by
  obtain ⟨tokens, lexed⟩ : ∃ tokens, Token.lex Parse.brokenRelationship = .ok tokens :=
    Token.exists_of_isOk (by decide +kernel)
  obtain ⟨p, parsed, depth⟩ := Parse.recovery_depth .entity 10 lexed
  exact ⟨tokens, p, lexed, parsed, depth⟩

/-- An item of a block can be given up with a brace open, so that the brace that closes the block
next is the item's own. -/
theorem Parse.recovery_depth_open_brace :
    ∃ tokens p, Token.lex Parse.brokenRelationship = .ok tokens ∧
      Parse.ofSource? .entity 10 Parse.brokenRelationship = .ok p ∧
      p.faults.length < max 10 1 ∧
      ∃ n ∈ Node.subtreesOf p.tree.children, ∃ item ∈ n.children, item.kind = .error ∧
        ¬ item.ReachesEnd tokens ∧ ¬ Token.Paired (Token.within item.span tokens) := by
  obtain ⟨tokens, lexed⟩ : ∃ tokens, Token.lex Parse.brokenRelationship = .ok tokens :=
    Token.exists_of_isOk (by decide +kernel)
  refine ⟨tokens, _, lexed, Parse.ofSource?_of_lex lexed .entity 10, ?_⟩
  have computed : ((Token.lex Parse.brokenRelationship).toOption.any fun tokens =>
      let p := Parse.ofTokens .entity 10 tokens
      decide (p.faults.length < max 10 1 ∧
        ∃ n ∈ Node.subtreesOf p.tree.children, ∃ item ∈ n.children, item.kind = .error ∧
          ¬ item.ReachesEnd tokens ∧ ¬ Token.Paired (Token.within item.span tokens))) = true := by
    decide +kernel
  rw [lexed] at computed
  exact of_decide_eq_true computed

end EntityFlow
