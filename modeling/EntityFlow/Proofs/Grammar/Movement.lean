import EntityFlow.Grammar.Run

/-!
# Movement of cursors

A cursor only moves forward. `Cursor.Moves` says over which tokens it went, so that whatever reads
tokens is described by the segment it took:

* **composition**: movements follow each other (`Moves.trans`), and the segment is what
  `Cursor.taken` yields (`Moves.taken`);
* **the end token** (`Token.Ended`) stays ahead, and no segment holds it (`Moves.ended`);
* **recoveries** are movements, and one that starts in front of a proper token takes at least one
  (`resume_remaining`).
-/

namespace EntityFlow

/-- Tokens as a source yields them: the last one is the end token, and the only one of its kind. -/
def Token.Ended : List Token → Prop
  | [] => False
  | [t] => t.kind = .eof
  | t :: u :: rest => t.kind ≠ .eof ∧ Token.Ended (u :: rest)

namespace Token

theorem Ended.ne_nil {tokens : List Token} (ended : Ended tokens) : tokens ≠ [] := by
  intro empty
  rw [empty] at ended
  exact ended

/-- In front of more tokens there is no end token. -/
theorem Ended.append {segment rest : List Token} (ended : Ended (segment ++ rest))
    (more : rest ≠ []) : (∀ t ∈ segment, t.kind ≠ .eof) ∧ Ended rest := by
  induction segment with
  | nil => exact ⟨by simp, ended⟩
  | cons t segment ih =>
      have notEmpty : segment ++ rest ≠ [] := by simp [more]
      obtain ⟨u, tail, equal⟩ := List.exists_cons_of_ne_nil notEmpty
      rw [List.cons_append, equal] at ended
      obtain ⟨proper, endedTail⟩ := ended
      rw [← equal] at endedTail
      obtain ⟨allProper, endedRest⟩ := ih endedTail
      refine ⟨?_, endedRest⟩
      intro x member
      rcases List.mem_cons.mp member with rfl | member
      · exact proper
      · exact allProper x member

theorem Ended.proper_of_mem_dropLast {tokens : List Token} {t : Token} (ended : Ended tokens)
    (member : t ∈ tokens.dropLast) : t.kind ≠ .eof := by
  rw [← List.dropLast_concat_getLast ended.ne_nil] at ended
  exact (ended.append (List.cons_ne_nil _ _)).1 t member

/-- Where the end token is the first one, it is alone. -/
theorem Ended.eq_singleton {t : Token} {rest : List Token} (ended : Ended (t :: rest))
    (atEnd : t.kind = .eof) : rest = [] := by
  cases rest with
  | nil => rfl
  | cons u rest => exact absurd atEnd ended.1

end Token

namespace Cursor

/-- The second place is reached from the first one over a segment of tokens. -/
structure Moves (first : Cursor) (segment : List Token) (last : Cursor) : Prop where
  ahead : first.ahead = segment ++ last.ahead
  before : last.before = segment.getLast?.or first.before
  kept : first.ahead ≠ [] → last.ahead ≠ []

namespace Moves

variable {first middle last : Cursor} {segment more : List Token}

theorem refl (c : Cursor) : c.Moves [] c := ⟨rfl, rfl, id⟩

theorem trans (one : first.Moves segment middle) (two : middle.Moves more last) :
    first.Moves (segment ++ more) last := by
  refine ⟨?_, ?_, fun notEmpty => two.kept (one.kept notEmpty)⟩
  · rw [one.ahead, two.ahead, List.append_assoc]
  · rw [two.before, one.before, List.getLast?_append, Option.or_assoc]

theorem remaining (moves : first.Moves segment last) :
    first.remaining = segment.length + last.remaining := by
  unfold Cursor.remaining
  rw [moves.ahead, List.length_append]

/-- The segment is what was taken between the two places. -/
theorem taken (moves : first.Moves segment last) : first.taken last = segment := by
  unfold Cursor.taken
  rw [moves.remaining, Nat.add_sub_cancel, moves.ahead]
  exact List.take_left' rfl

/-- The end token stays ahead. -/
theorem ended (moves : first.Moves segment last) (ended : Token.Ended first.ahead) :
    (∀ t ∈ segment, t.kind ≠ .eof) ∧ Token.Ended last.ahead := by
  have more := moves.kept ended.ne_nil
  rw [moves.ahead] at ended
  exact ended.append more

/-- A place reached over no token is the place itself. -/
theorem eq_of_nil (moves : first.Moves [] last) : last = first := by
  have ahead := moves.ahead
  have before := moves.before
  cases first
  cases last
  simp only [List.nil_append] at ahead
  simp only [List.getLast?_nil, Option.none_or] at before
  rw [ahead, before]

/-- A movement takes the current token first. -/
theorem current_eq {t : Token} (moves : first.Moves segment last)
    (head : segment.head? = some t) : first.current = t := by
  obtain ⟨rest, rfl⟩ := List.head?_eq_some_iff.mp head
  unfold Cursor.current
  rw [moves.ahead]
  rfl

theorem remaining_le (moves : first.Moves segment last) : last.remaining ≤ first.remaining := by
  have := moves.remaining
  omega

/-- Fewer tokens are ahead exactly after at least one was taken. -/
theorem remaining_lt_iff (moves : first.Moves segment last) :
    last.remaining < first.remaining ↔ segment ≠ [] := by
  have count := moves.remaining
  rw [← List.length_pos_iff]
  omega

end Moves

theorem advance_moves (c : Cursor) : ∃ segment, c.Moves segment c.advance := by
  obtain ⟨before, ahead⟩ := c
  match ahead with
  | [] => exact ⟨[], .refl _⟩
  | [t] => exact ⟨[], .refl _⟩
  | t :: u :: rest => exact ⟨[t], rfl, rfl, fun _ => List.cons_ne_nil _ _⟩

/-- In front of a proper token exactly that token is taken. -/
theorem advance_moves_current {c : Cursor} (ended : Token.Ended c.ahead)
    (proper : c.current.kind ≠ .eof) : c.Moves [c.current] c.advance := by
  obtain ⟨before, ahead⟩ := c
  match ahead with
  | [t] => exact absurd ended proper
  | t :: u :: rest => exact ⟨rfl, rfl, fun _ => List.cons_ne_nil _ _⟩

@[simp] theorem nth_zero (c : Cursor) : c.nth 0 = c.current := by
  obtain ⟨before, ahead⟩ := c
  cases ahead <;> rfl

/-- At the end token nothing else is ahead. -/
theorem ahead_eq_of_eof {c : Cursor} (ended : Token.Ended c.ahead)
    (atEnd : c.current.kind = .eof) : c.ahead = [c.current] := by
  obtain ⟨before, ahead⟩ := c
  match ahead with
  | t :: rest =>
      have alone : rest = [] := ended.eq_singleton atEnd
      rw [alone]
      rfl

/-- The end token is never passed. -/
theorem Moves.eq_of_eof {first last : Cursor} {segment : List Token}
    (moves : first.Moves segment last) (ended : Token.Ended first.ahead)
    (atEnd : first.current.kind = .eof) : last = first := by
  have alone : first.remaining = 1 := by
    unfold Cursor.remaining
    rw [ahead_eq_of_eof ended atEnd]
    rfl
  have some : 0 < last.remaining := List.length_pos_iff.mpr (moves.ended ended).2.ne_nil
  have count := moves.remaining
  have none : segment = [] := List.length_eq_zero_iff.mp (by omega)
  rw [none] at moves
  exact moves.eq_of_nil

theorem head?_ahead {c : Cursor} (some : c.ahead ≠ []) : c.ahead.head? = .some c.current := by
  obtain ⟨t, rest, ahead⟩ := List.exists_cons_of_ne_nil some
  unfold Cursor.current
  rw [ahead]
  rfl

/-- At the end token every token ahead is the end token. -/
theorem nth_of_eof {c : Cursor} (ended : Token.Ended c.ahead) (atEnd : c.current.kind = .eof)
    (n : Nat) : (c.nth n).kind = .eof := by
  have alone := ahead_eq_of_eof ended atEnd
  unfold Cursor.nth
  rw [alone]
  cases n with
  | zero => exact atEnd
  | succ n => exact atEnd

end Cursor

/-! ## Recoveries -/

namespace Recovery

/-- One more token in front of a movement. -/
theorem moves_cons {before : Option Token} {t u : Token} {rest : List Token} {last : Cursor}
    (tail : ∃ segment, (Cursor.mk (some t) (u :: rest)).Moves segment last) :
    ∃ segment, (Cursor.mk before (t :: u :: rest)).Moves segment last := by
  obtain ⟨segment, moves⟩ := tail
  have step : (Cursor.mk before (t :: u :: rest)).Moves [t] (Cursor.mk (some t) (u :: rest)) :=
    ⟨rfl, rfl, fun _ => List.cons_ne_nil _ _⟩
  exact ⟨[t] ++ segment, step.trans moves⟩

theorem toEnd_moves (before : Option Token) (ahead : List Token) :
    ∃ segment, (Cursor.mk before ahead).Moves segment (toEnd before ahead) := by
  fun_induction toEnd before ahead with
  | case1 => exact ⟨[], .refl _⟩
  | case2 before t u rest _ ih => exact moves_cons ih
  | case3 => exact ⟨[], .refl _⟩

theorem toLine_moves (depth : Nat) (before : Option Token) (ahead : List Token) :
    ∃ segment, (Cursor.mk before ahead).Moves segment (toLine depth before ahead) := by
  fun_induction toLine depth before ahead with
  | case1 => exact ⟨[], .refl _⟩
  | case2 => exact ⟨[], .refl _⟩
  | case3 depth before t u rest _ _ ih => exact moves_cons ih
  | case4 depth before t u rest _ ih => exact moves_cons ih
  | case5 => exact ⟨[], .refl _⟩
  | case6 depth before t u rest _ _ _ _ ih => exact moves_cons ih
  | case7 => exact ⟨[], .refl _⟩

theorem toConstruct_moves (keywords : List String) (depth : Nat) (before : Option Token)
    (ahead : List Token) :
    ∃ segment, (Cursor.mk before ahead).Moves segment
      (toConstruct keywords depth before ahead) := by
  fun_induction toConstruct keywords depth before ahead with
  | case1 => exact ⟨[], .refl _⟩
  | case2 depth before t u rest _ ih => exact moves_cons ih
  | case3 before t u rest _ => exact moves_cons ⟨[], .refl _⟩
  | case4 depth before t u rest _ _ ih => exact moves_cons ih
  | case5 => exact ⟨[], .refl _⟩
  | case6 depth before t u rest _ _ _ _ ih => exact moves_cons ih
  | case7 => exact ⟨[], .refl _⟩

theorem toEnd_current (before : Option Token) {ahead : List Token} (ended : Token.Ended ahead) :
    (toEnd before ahead).current.kind = .eof := by
  fun_induction toEnd before ahead with
  | case1 before t u rest atEnd => exact atEnd
  | case2 before t u rest _ ih => exact ih ended.2
  | case3 before ahead short =>
      match ahead with
      | [t] => exact ended
      | t :: u :: rest => exact absurd rfl (short t u rest)

/-- The place from which a recovery goes on: after the first token if the construct broke there. -/
def restart (first broken : Cursor) : Cursor :=
  if broken.remaining = first.remaining then broken.advance else broken

theorem restart_self {before : Option Token} {t : Token} {rest : List Token} (more : rest ≠ []) :
    restart ⟨before, t :: rest⟩ ⟨before, t :: rest⟩ = ⟨some t, rest⟩ := by
  obtain ⟨u, tail, rfl⟩ := List.exists_cons_of_ne_nil more
  exact if_pos rfl

theorem resume_eq (how : Recovery) (first broken : Cursor) :
    resume how first broken =
      match how with
      | .line => toLine 0 (restart first broken).before (restart first broken).ahead
      | .construct keywords =>
          toConstruct keywords 0 (restart first broken).before (restart first broken).ahead := by
  cases how <;> rfl

theorem restart_moves (first broken : Cursor) :
    ∃ segment, broken.Moves segment (restart first broken) := by
  unfold restart
  split
  · exact broken.advance_moves
  · exact ⟨[], .refl _⟩

theorem resume_moves_restart (how : Recovery) (first broken : Cursor) :
    ∃ segment, (restart first broken).Moves segment (resume how first broken) := by
  rw [resume_eq]
  cases how with
  | line => exact toLine_moves _ _ _
  | construct keywords => exact toConstruct_moves _ _ _ _

theorem resume_moves (how : Recovery) (first broken : Cursor) :
    ∃ segment, broken.Moves segment (resume how first broken) := by
  obtain ⟨one, toRestart⟩ := restart_moves first broken
  obtain ⟨two, toResume⟩ := resume_moves_restart how first broken
  exact ⟨one ++ two, toRestart.trans toResume⟩

/-- A recovery from a construct that starts with a proper token leaves that token behind. -/
theorem restart_remaining {first broken : Cursor} {segment : List Token}
    (moves : first.Moves segment broken) (ended : Token.Ended first.ahead)
    (proper : first.current.kind ≠ .eof) : (restart first broken).remaining < first.remaining := by
  unfold restart
  split
  · rename_i same
    have count := moves.remaining
    have none : segment.length = 0 := by omega
    rw [List.length_eq_zero_iff.mp none] at moves
    rw [moves.eq_of_nil]
    have step := Cursor.advance_moves_current ended proper
    exact step.remaining_lt_iff.mpr (List.cons_ne_nil _ _)
  · have := moves.remaining_le
    omega

theorem resume_remaining {how : Recovery} {first broken : Cursor} {segment : List Token}
    (moves : first.Moves segment broken) (ended : Token.Ended first.ahead)
    (proper : first.current.kind ≠ .eof) :
    (resume how first broken).remaining < first.remaining := by
  obtain ⟨_, toResume⟩ := resume_moves_restart how first broken
  exact Nat.lt_of_le_of_lt toResume.remaining_le (restart_remaining moves ended proper)

end Recovery

namespace Node

@[simp] theorem ofTokens_kind (k : Kind) (first last : Cursor) (parts : List Node) :
    (ofTokens k first last parts).kind = k := rfl

@[simp] theorem ofTokens_children (k : Kind) (first last : Cursor) (parts : List Node) :
    (ofTokens k first last parts).children = parts := rfl

end Node

end EntityFlow
