import EntityFlow.Proofs.Grammar.Movement

/-!
# Forks

Two rows of tokens that begin alike and go on in two ways. As long as a place is in front of the
fork, moving on, the node for what was taken and every look that sees no token behind the fork are
the same in both rows.
-/

namespace EntityFlow

/-- How many tokens a look sees. -/
def Look.reach : Look → Nat
  | .kind n _ => n + 1
  | .word n _ => n + 1
  | .not a => a.reach
  | .and a b => max a.reach b.reach
  | .or a b => max a.reach b.reach
  | .adjacent | .sameLine | .onLine | .capitals => 1

/-- Two places after the same token, with the tokens `front` ahead and then `rest` in one row and
`rest'` in the other. -/
structure Cursor.Forks (front rest rest' : List Token) (c c' : Cursor) : Prop where
  before : c'.before = c.before
  ahead : c.ahead = front ++ rest
  ahead' : c'.ahead = front ++ rest'

namespace Cursor.Forks

variable {front later rest rest' segment : List Token} {c c' d d' : Cursor} {n : Nat}

theorem remaining (forks : Forks front rest rest' c c') :
    c.remaining = front.length + rest.length := by
  unfold Cursor.remaining
  rw [forks.ahead, List.length_append]

theorem nth_eq (forks : Forks front rest rest' c c') (within : n < front.length) :
    c'.nth n = c.nth n := by
  unfold Cursor.nth
  rw [forks.ahead, forks.ahead', List.getElem?_append_left within,
    List.getElem?_append_left within, List.getElem?_eq_getElem within]

theorem current_eq (forks : Forks front rest rest' c c') (some : 0 < front.length) :
    c'.current = c.current := by
  rw [← c'.nth_zero, ← c.nth_zero, forks.nth_eq some]

theorem lineBefore_eq (forks : Forks front rest rest' c c') : c'.lineBefore = c.lineBefore := by
  unfold Cursor.lineBefore
  rw [forks.before]

/-- A place in front of the fork has a counterpart. -/
theorem exists_of_moves (forks : Forks front rest rest' c c') (moves : c.Moves segment d)
    (inFront : rest.length ≤ d.remaining) :
    ∃ later d', front = segment ++ later ∧ Forks later rest rest' d d' := by
  have whole : front ++ rest = segment ++ d.ahead := by rw [← forks.ahead, moves.ahead]
  have fits : segment.length ≤ front.length := by
    have lengths := congrArg List.length whole
    simp only [List.length_append] at lengths
    unfold Cursor.remaining at inFront
    omega
  obtain ⟨later, rfl⟩ : segment <+: front :=
    List.prefix_of_prefix_length_le ⟨_, whole.symm⟩ (List.prefix_append _ _) fits
  have ahead : d.ahead = later ++ rest := by
    rw [List.append_assoc] at whole
    exact (List.append_cancel_left whole).symm
  exact ⟨later, ⟨d.before, later ++ rest'⟩, rfl, rfl, ahead, rfl⟩

/-- In front of the fork the same tokens are taken in both rows. -/
theorem moves (forks : Forks front rest rest' c c') (next : Forks later rest rest' d d')
    (some : rest' ≠ []) (moves : c.Moves segment d) :
    front = segment ++ later ∧ c'.Moves segment d' := by
  have whole : front ++ rest = (segment ++ later) ++ rest := by
    rw [← forks.ahead, moves.ahead, next.ahead, List.append_assoc]
  have split := List.append_cancel_right whole
  refine ⟨split, ?_, ?_, fun _ => ?_⟩
  · rw [forks.ahead', split, List.append_assoc, next.ahead']
  · rw [next.before, moves.before, forks.before]
  · rw [next.ahead']
    exact List.append_ne_nil_of_right_ne_nil _ some

end Cursor.Forks

/-- A look that does not see the fork has one answer. -/
theorem Look.holds_eq_of_reach {front rest rest' : List Token} {c c' : Cursor} {line : Nat}
    {look : Look} (forks : Cursor.Forks front rest rest' c c')
    (short : look.reach ≤ front.length) : look.holds line c' = look.holds line c := by
  induction look with
  | kind n k =>
      have within : n + 1 ≤ front.length := short
      unfold Look.holds
      rw [forks.nth_eq within]
  | word n ws =>
      have within : n + 1 ≤ front.length := short
      unfold Look.holds
      rw [forks.nth_eq within]
  | not a ih =>
      unfold Look.holds
      rw [ih short]
  | and a b ihA ihB =>
      have within : max a.reach b.reach ≤ front.length := short
      unfold Look.holds
      rw [ihA (by omega), ihB (by omega)]
  | or a b ihA ihB =>
      have within : max a.reach b.reach ≤ front.length := short
      unfold Look.holds
      rw [ihA (by omega), ihB (by omega)]
  | adjacent =>
      show c'.before.any _ = c.before.any _
      rw [forks.before, forks.current_eq short]
  | sameLine =>
      show (_ == _) = (_ == _)
      rw [forks.lineBefore_eq, forks.current_eq short]
  | onLine =>
      show (_ == _) = (_ == _)
      rw [forks.current_eq short]
  | capitals =>
      unfold Look.holds
      rw [forks.current_eq short]

/-- Where all looks have the same answers, the same kind is picked. -/
theorem Grammar.pick_congr {line line' : Nat} {c c' : Cursor} {otherwise : Option Node.Kind}
    {cases : List (Look × Node.Kind)}
    (same : ∀ look ∈ cases.map (·.1), look.holds line' c' = look.holds line c) :
    Grammar.pick line' c' otherwise cases = Grammar.pick line c otherwise cases := by
  induction cases with
  | nil => rfl
  | cons first rest ih =>
      unfold Grammar.pick
      rw [same first.1 List.mem_cons_self, ih fun look member => same look (.tail _ member)]

/-! ## What was taken -/

/-- Where one token was taken, the place is the next one. -/
theorem Cursor.Moves.advance_eq {c d : Cursor} {t : Token} (moves : c.Moves [t] d) :
    c.advance = d := by
  have some : d.ahead ≠ [] := moves.kept (by rw [moves.ahead]; simp)
  obtain ⟨before, ahead⟩ := c
  obtain ⟨u, rest, more⟩ := List.exists_cons_of_ne_nil some
  have whole : ahead = t :: u :: rest := by rw [← more]; exact moves.ahead
  have last : d.before = Option.some t := moves.before
  obtain ⟨before', ahead'⟩ := d
  cases more
  cases last
  cases whole
  rfl

/-- Behind the tokens that were taken stands the current token of the place reached. -/
theorem Cursor.Moves.nth_length {c d : Cursor} {segment : List Token} (moves : c.Moves segment d)
    (some : 0 < d.remaining) : c.nth segment.length = d.current := by
  obtain ⟨t, rest, ahead⟩ := List.exists_cons_of_ne_nil (List.length_pos_iff.mp some)
  unfold Cursor.nth Cursor.current
  rw [moves.ahead, List.getElem?_append_right (Nat.le_refl _), Nat.sub_self, ahead]
  rfl

/-- The node for tokens that were taken in both rows. -/
theorem Node.ofTokens_congr {c c' d d' : Cursor} {segment : List Token} {k : Node.Kind}
    {parts : List Node} (moves : c.Moves segment d) (moves' : c'.Moves segment d')
    (current : segment = [] → d'.current = d.current) :
    Node.ofTokens k c' d' parts = Node.ofTokens k c d parts := by
  unfold Node.ofTokens
  rw [moves.taken, moves'.taken]
  cases segment with
  | nil => rw [current rfl]
  | cons t rest =>
      obtain ⟨last, found⟩ : ∃ last, (t :: rest).getLast? = some last :=
        Option.isSome_iff_exists.mp (by simp)
      simp only [List.head?_cons, found]

theorem Node.wrap_congr {c c' d d' : Cursor} {segment : List Token} {k : Option Node.Kind}
    {parts : List Node} (moves : c.Moves segment d) (moves' : c'.Moves segment d')
    (current : segment = [] → d'.current = d.current) :
    Node.wrap k c' d' parts = Node.wrap k c d parts := by
  cases k with
  | none => rfl
  | some k =>
      show [_] = [_]
      rw [ofTokens_congr moves moves' current]

end EntityFlow
