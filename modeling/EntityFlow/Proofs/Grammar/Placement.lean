import EntityFlow.Proofs.Grammar.Movement
import EntityFlow.Proofs.Token.Order

/-!
# Where nodes stand

A cursor over the tokens of a source stands between two tokens: `Cursor.stopsAt` is where the one
before stops and `Cursor.startsAt` where the current one starts. A node that was read from one
cursor to another covers the tokens between them:

* its span runs from where the first cursor starts to where the last one stops
  (`Node.ofTokens_start`, `Node.ofTokens_stop`), or is a point if no token was taken;
* its text is the text of the tokens inside its span (`Node.ofTokens_text`).
-/

namespace EntityFlow

/-- Whether a span lies in another one. -/
def Span.contains (outer inner : Span) : Bool :=
  decide (outer.start ≤ inner.start ∧ inner.stop ≤ outer.stop)

theorem Span.contains_iff {outer inner : Span} :
    outer.contains inner = true ↔ outer.start ≤ inner.start ∧ inner.stop ≤ outer.stop :=
  decide_eq_true_iff

/-- The cover of two spans in order runs from where the first starts to where the second stops. -/
theorem Span.cover_of_le {a b : Span} (starts : a.start ≤ b.start) (stops : a.stop ≤ b.stop) :
    a.cover b = ⟨a.start, b.stop, a.line, a.column, b.endLine, b.endColumn⟩ := by
  unfold cover
  simp only [if_pos starts]
  rw [if_pos stops]

/-- The tokens that lie in a span. -/
def Token.within (s : Span) (tokens : List Token) : List Token :=
  tokens.filter fun t => s.contains t.span

/-- The tokens behind a span. -/
def Token.behind (s : Span) (tokens : List Token) : List Token :=
  tokens.filter fun t => s.stop ≤ t.span.start

/-- The text that a node of a kind shows for some tokens: documentation only if the node is
documentation itself. -/
def Node.shown (k : Node.Kind) (tokens : List Token) : String :=
  String.join ((tokens.filter fun t => k.isDocumentation || t.kind != .javadoc).map (·.text))

theorem Node.shown_append (k : Node.Kind) (front back : List Token) :
    Node.shown k (front ++ back) = Node.shown k front ++ Node.shown k back := by
  simp [Node.shown]

theorem Node.shown_eq_empty {k : Node.Kind} {tokens : List Token}
    (empty : ∀ t ∈ tokens, t.text = "") : Node.shown k tokens = "" := by
  induction tokens with
  | nil => rfl
  | cons t rest ih =>
      have tail := ih fun x member => empty x (List.mem_cons_of_mem _ member)
      have head : Node.shown k [t] = "" := by
        have textless := empty t List.mem_cons_self
        unfold Node.shown
        rw [List.filter_cons]
        split <;> simp [textless]
      rw [← List.singleton_append, Node.shown_append, head, tail]
      rfl

namespace Cursor

/-- A place among some tokens. -/
def On (tokens : List Token) (c : Cursor) : Prop := ∃ front, (start tokens).Moves front c

/-- Where the current token starts. -/
def startsAt (c : Cursor) : Nat := c.current.span.start

/-- Where the token before stops. -/
def stopsAt (c : Cursor) : Nat := (c.before.map (·.span.stop)).getD 0

variable {tokens segment : List Token} {first last : Cursor}

theorem on_start (tokens : List Token) : (start tokens).On tokens := ⟨[], .refl _⟩

theorem On.moves (on : first.On tokens) (moves : first.Moves segment last) : last.On tokens := by
  obtain ⟨front, toFirst⟩ := on
  exact ⟨front ++ segment, toFirst.trans moves⟩

theorem On.ended (on : first.On tokens) (ordered : Token.InOrder 0 tokens) :
    Token.Ended first.ahead := by
  obtain ⟨front, toFirst⟩ := on
  exact (toFirst.ended ordered.ended).2

/-- The tokens of a source around a place: those in front of it end with the token before, and the
current token is the first one ahead. -/
theorem On.split (on : first.On tokens) (ordered : Token.InOrder 0 tokens) :
    ∃ front rest, tokens = front ++ first.current :: rest ∧ first.ahead = first.current :: rest ∧
      first.before = front.getLast? := by
  have ended := on.ended ordered
  obtain ⟨front, toFirst⟩ := on
  have whole : tokens = front ++ first.ahead := toFirst.ahead
  have before : first.before = front.getLast?.or none := toFirst.before
  rw [Option.or_none] at before
  obtain ⟨t, rest, ahead⟩ := List.exists_cons_of_ne_nil ended.ne_nil
  have current : first.current = t := by
    unfold Cursor.current
    rw [ahead]
    rfl
  rw [current]
  refine ⟨front, rest, ?_, ahead, before⟩
  rw [← ahead]
  exact whole

theorem On.stopsAt_le_startsAt (on : first.On tokens) (ordered : Token.InOrder 0 tokens) :
    first.stopsAt ≤ first.startsAt := by
  obtain ⟨front, rest, whole, _, before⟩ := on.split ordered
  have apart := ordered.arranged.apart
  rw [whole, List.pairwise_append] at apart
  unfold stopsAt
  rw [before]
  cases last : front.getLast? with
  | none => exact Nat.zero_le _
  | some t => exact apart.2.2 t (List.mem_of_getLast? last) _ List.mem_cons_self

/-- The tokens in front of a place stop there at the latest. -/
theorem On.stop_le_of_mem {front : List Token} {t : Token} (on : first.On tokens)
    (ordered : Token.InOrder 0 tokens) (whole : tokens = front ++ first.ahead)
    (member : t ∈ front) : t.span.stop ≤ first.startsAt := by
  obtain ⟨_, rest, _, ahead, _⟩ := on.split ordered
  have apart := ordered.arranged.apart
  rw [whole, ahead, List.pairwise_append] at apart
  exact apart.2.2 t member _ List.mem_cons_self

/-- The token before a place stops where or after every token in front of it does. -/
theorem On.stop_le_stopsAt {front : List Token} {t : Token} (on : first.On tokens)
    (ordered : Token.InOrder 0 tokens) (whole : tokens = front ++ first.ahead)
    (member : t ∈ front) : t.span.stop ≤ first.stopsAt := by
  have before : first.before = front.getLast? := by
    obtain ⟨front', toFirst⟩ := on
    have same : front' = front := by
      have whole' : tokens = front' ++ first.ahead := toFirst.ahead
      exact List.append_cancel_right (whole'.symm.trans whole)
    have before : first.before = front'.getLast?.or none := toFirst.before
    rw [Option.or_none, same] at before
    exact before
  -- so the token before is the last one in front, and the others stop where it starts
  obtain ⟨init, y, concat⟩ :=
    (List.eq_nil_or_concat front).resolve_left (List.ne_nil_of_mem member)
  rw [List.concat_eq_append] at concat
  subst concat
  have arranged := ordered.arranged
  have apart := arranged.apart
  rw [whole, List.append_assoc, List.pairwise_append] at apart
  have memberY : y ∈ tokens := by
    rw [whole]
    simp
  unfold stopsAt
  rw [before, List.getLast?_concat]
  show t.span.stop ≤ y.span.stop
  rcases List.mem_append.mp member with member | member
  · have := apart.2.2 t member y (by simp)
    have := arranged.start_le memberY
    omega
  · exact Nat.le_of_eq (by rw [List.mem_singleton.mp member])

theorem On.stopsAt_le_of_mem (on : first.On tokens) (ordered : Token.InOrder 0 tokens) {t : Token}
    (member : t ∈ first.ahead) : first.stopsAt ≤ t.span.start := by
  obtain ⟨front, rest, whole, ahead, before⟩ := on.split ordered
  have apart := ordered.arranged.apart
  rw [whole, ← ahead, List.pairwise_append] at apart
  unfold stopsAt
  rw [before]
  cases last : front.getLast? with
  | none => exact Nat.zero_le _
  | some x => exact apart.2.2 x (List.mem_of_getLast? last) t member

theorem On.startsAt_le_of_mem (on : first.On tokens) (ordered : Token.InOrder 0 tokens) {t : Token}
    (member : t ∈ first.ahead) : first.startsAt ≤ t.span.start := by
  obtain ⟨front, rest, whole, ahead, _⟩ := on.split ordered
  have arranged := ordered.arranged
  have apart := arranged.apart
  have memberCurrent : first.current ∈ tokens := by
    rw [whole]
    simp
  rw [whole, List.pairwise_append, List.pairwise_cons] at apart
  rw [ahead] at member
  rcases List.mem_cons.mp member with rfl | member
  · exact Nat.le_refl _
  · have := apart.2.1.1 t member
    have := arranged.start_le memberCurrent
    unfold startsAt
    omega

end Cursor

namespace Cursor.Moves

variable {tokens segment : List Token} {first last : Cursor}

/-- A segment lies between where the first place starts and where the last one stops. -/
theorem bounds (moves : first.Moves segment last) (on : first.On tokens)
    (ordered : Token.InOrder 0 tokens) {t : Token} (member : t ∈ segment) :
    first.startsAt ≤ t.span.start ∧ t.span.stop ≤ last.stopsAt := by
  have onLast := on.moves moves
  obtain ⟨front, toFirst⟩ := on
  have whole : tokens = (front ++ segment) ++ last.ahead := (toFirst.trans moves).ahead
  constructor
  · refine Cursor.On.startsAt_le_of_mem ⟨front, toFirst⟩ ordered ?_
    rw [moves.ahead]
    exact List.mem_append_left _ member
  · exact onLast.stop_le_stopsAt ordered whole (List.mem_append_right _ member)

/-- A movement starts where its first token does. -/
theorem startsAt_eq {t : Token} (moves : first.Moves segment last)
    (head : segment.head? = some t) : first.startsAt = t.span.start := by
  unfold Cursor.startsAt
  rw [moves.current_eq head]

/-- A movement stops where its last token does. -/
theorem stopsAt_eq {t : Token} (moves : first.Moves segment last)
    (tail : segment.getLast? = some t) : last.stopsAt = t.span.stop := by
  unfold Cursor.stopsAt
  rw [moves.before, tail]
  rfl

/-- The tokens of a segment are not empty. -/
theorem start_lt (moves : first.Moves segment last) (on : first.On tokens)
    (ordered : Token.InOrder 0 tokens) {t : Token} (member : t ∈ segment) :
    t.span.start < t.span.stop := by
  have proper := (moves.ended (on.ended ordered)).1 t member
  obtain ⟨front, toFirst⟩ := on
  have whole : tokens = (front ++ segment) ++ last.ahead := (toFirst.trans moves).ahead
  have among : t ∈ tokens := by
    rw [whole]
    exact List.mem_append_left _ (List.mem_append_right _ member)
  exact ordered.arranged.start_lt t among proper

/-- Where a token was taken, the last place stops after the first one starts. -/
theorem startsAt_lt_stopsAt (moves : first.Moves segment last) (on : first.On tokens)
    (ordered : Token.InOrder 0 tokens) (some : segment ≠ []) : first.startsAt < last.stopsAt := by
  obtain ⟨t, rest, rfl⟩ := List.exists_cons_of_ne_nil some
  have bounds := moves.bounds on ordered (t := t) List.mem_cons_self
  have := moves.start_lt on ordered (t := t) List.mem_cons_self
  omega

theorem startsAt_le (moves : first.Moves segment last) (on : first.On tokens)
    (ordered : Token.InOrder 0 tokens) : first.startsAt ≤ last.startsAt := by
  cases segment with
  | nil =>
      obtain rfl := moves.eq_of_nil
      exact Nat.le_refl _
  | cons t rest =>
      have := moves.startsAt_lt_stopsAt on ordered (List.cons_ne_nil _ _)
      have := (on.moves moves).stopsAt_le_startsAt ordered
      omega

theorem stopsAt_le (moves : first.Moves segment last) (on : first.On tokens)
    (ordered : Token.InOrder 0 tokens) : first.stopsAt ≤ last.stopsAt := by
  cases segment with
  | nil =>
      obtain rfl := moves.eq_of_nil
      exact Nat.le_refl _
  | cons t rest =>
      have := moves.startsAt_lt_stopsAt on ordered (List.cons_ne_nil _ _)
      have := on.stopsAt_le_startsAt ordered
      omega

/-- In the span from one place to another lie the tokens between them, and at most the end token. -/
theorem within_eq {s : Span} (moves : first.Moves segment last) (on : first.On tokens)
    (ordered : Token.InOrder 0 tokens) (some : segment ≠ []) (starts : s.start = first.startsAt)
    (stops : s.stop = last.stopsAt) :
    Token.within s tokens = segment ++ Token.within s last.ahead := by
  have ⟨front, toFirst⟩ := on
  have atFirst : tokens = front ++ first.ahead := toFirst.ahead
  have whole : tokens = front ++ segment ++ last.ahead := (toFirst.trans moves).ahead
  have nonempty := moves.startsAt_lt_stopsAt on ordered some
  have outFront : Token.within s front = [] := by
    refine List.filter_eq_nil_iff.mpr ?_
    intro t member inside
    rw [Span.contains_iff, starts] at inside
    have atMost := on.stop_le_of_mem ordered atFirst member
    have := toFirst.start_lt (Cursor.on_start tokens) ordered member
    omega
  have inSegment : Token.within s segment = segment := by
    refine List.filter_eq_self.mpr ?_
    intro t member
    rw [Span.contains_iff, starts, stops]
    exact moves.bounds on ordered member
  have parts : Token.within s tokens
      = Token.within s front ++ Token.within s segment ++ Token.within s last.ahead := by
    rw [whole]
    unfold Token.within
    rw [List.filter_append, List.filter_append]
  rw [parts, outFront, inSegment, List.nil_append]

end Cursor.Moves

namespace Cursor.On

variable {tokens : List Token} {last : Cursor}

/-- Of the tokens ahead, at most the end token lies in a span that stops with the token before. -/
theorem eof_of_within {s : Span} {t : Token} (on : last.On tokens)
    (ordered : Token.InOrder 0 tokens) (stops : s.stop = last.stopsAt)
    (member : t ∈ Token.within s last.ahead) : t.kind = .eof ∧ t ∈ tokens := by
  obtain ⟨ahead, inside⟩ := List.mem_filter.mp member
  rw [Span.contains_iff, stops] at inside
  have atLeast := on.stopsAt_le_of_mem ordered ahead
  have among : t ∈ tokens := by
    obtain ⟨front, toLast⟩ := on
    have whole : tokens = front ++ last.ahead := toLast.ahead
    rw [whole]
    exact List.mem_append_right _ ahead
  refine ⟨?_, among⟩
  by_cases atEnd : t.kind = .eof
  · exact atEnd
  · have := ordered.arranged.start_lt t among atEnd
    omega

theorem within_ahead_eq_nil {s : Span} (on : last.On tokens) (ordered : Token.InOrder 0 tokens)
    (stops : s.stop = last.stopsAt) (proper : last.current.kind ≠ .eof) :
    Token.within s last.ahead = [] := by
  refine List.eq_nil_iff_forall_not_mem.mpr ?_
  intro t member
  obtain ⟨atEnd, among⟩ := on.eof_of_within ordered stops member
  obtain ⟨ahead, inside⟩ := List.mem_filter.mp member
  rw [Span.contains_iff, stops] at inside
  obtain ⟨front, rest, whole, aheadEq, _⟩ := on.split ordered
  have arranged := ordered.arranged
  have apart := arranged.apart
  have currentAmong : last.current ∈ tokens := by
    rw [whole]
    simp
  rw [whole, List.pairwise_append, List.pairwise_cons] at apart
  rw [aheadEq] at ahead
  rcases List.mem_cons.mp ahead with rfl | later
  · exact proper atEnd
  · have afterCurrent := apart.2.1.1 t later
    have currentSome := arranged.start_lt last.current currentAmong proper
    have beforeCurrent : last.stopsAt ≤ last.current.span.start := on.stopsAt_le_startsAt ordered
    have := arranged.start_le among
    omega

/-- Behind a span that stops with the token before are the tokens ahead. -/
theorem behind_eq {s : Span} (on : last.On tokens) (ordered : Token.InOrder 0 tokens)
    (stops : s.stop = last.stopsAt) : Token.behind s tokens = last.ahead := by
  have ⟨front, toLast⟩ := on
  have whole : tokens = front ++ last.ahead := toLast.ahead
  have outFront : Token.behind s front = [] := by
    refine List.filter_eq_nil_iff.mpr ?_
    intro t member inside
    rw [decide_eq_true_iff, stops] at inside
    have atMost := on.stop_le_stopsAt ordered whole member
    have := toLast.start_lt (Cursor.on_start tokens) ordered member
    omega
  have inAhead : Token.behind s last.ahead = last.ahead := by
    refine List.filter_eq_self.mpr ?_
    intro t member
    rw [decide_eq_true_iff, stops]
    exact on.stopsAt_le_of_mem ordered member
  have parts : Token.behind s tokens = Token.behind s front ++ Token.behind s last.ahead := by
    rw [whole]
    exact List.filter_append ..
  rw [parts, outFront, inAhead, List.nil_append]

end Cursor.On

/-! ## Nodes from one place to another -/

namespace Node

variable {tokens segment : List Token} {first last : Cursor} {k : Kind} {parts : List Node}

theorem ofTokens_shown (moves : first.Moves segment last) :
    (ofTokens k first last parts).text = shown k segment := by
  show String.join _ = _
  rw [moves.taken]
  rfl

/-- A node without tokens is a point. -/
theorem ofTokens_point (moves : first.Moves [] last) :
    (ofTokens k first last parts).span = last.current.span.point := by
  unfold ofTokens
  dsimp only
  rw [moves.taken]
  rfl

/-- The span of a node runs from its first token to its last one. -/
theorem ofTokens_span {x y : Token} (moves : first.Moves segment last) (on : first.On tokens)
    (ordered : Token.InOrder 0 tokens) (head : segment.head? = some x)
    (tail : segment.getLast? = some y) :
    (ofTokens k first last parts).span = ⟨x.span.start, y.span.stop, x.span.line, x.span.column,
      y.span.endLine, y.span.endColumn⟩ := by
  have boundsX := moves.bounds on ordered (List.mem_of_head? head)
  have boundsY := moves.bounds on ordered (List.mem_of_getLast? tail)
  rw [moves.startsAt_eq head] at boundsY
  rw [moves.stopsAt_eq tail] at boundsX
  have span : (ofTokens k first last parts).span = x.span.cover y.span := by
    unfold ofTokens
    dsimp only
    rw [moves.taken, head, tail]
  rw [span, Span.cover_of_le boundsY.1 boundsX.2]

theorem ofTokens_cover (moves : first.Moves segment last) (on : first.On tokens)
    (ordered : Token.InOrder 0 tokens) (some : segment ≠ []) :
    (ofTokens k first last parts).span.start = first.startsAt ∧
      (ofTokens k first last parts).span.stop = last.stopsAt := by
  have head := List.head?_eq_some_head some
  have tail := List.getLast?_eq_some_getLast some
  rw [ofTokens_span moves on ordered head tail, moves.startsAt_eq head, moves.stopsAt_eq tail]
  exact ⟨rfl, rfl⟩

/-- A node starts where the first place starts. -/
theorem ofTokens_start (moves : first.Moves segment last) (on : first.On tokens)
    (ordered : Token.InOrder 0 tokens) :
    (ofTokens k first last parts).span.start = first.startsAt := by
  cases segment with
  | nil =>
      rw [ofTokens_point moves, ← moves.eq_of_nil]
      rfl
  | cons t rest => exact (ofTokens_cover moves on ordered (List.cons_ne_nil _ _)).1

/-- The tokens in the span from one place to another show what the tokens between them show. -/
theorem shown_within {s : Span} (moves : first.Moves segment last) (on : first.On tokens)
    (ordered : Token.InOrder 0 tokens) (some : segment ≠ []) (starts : s.start = first.startsAt)
    (stops : s.stop = last.stopsAt) : shown k (Token.within s tokens) = shown k segment := by
  have emptyRest : shown k (Token.within s last.ahead) = "" := by
    refine shown_eq_empty ?_
    intro t member
    obtain ⟨atEnd, among⟩ := (on.moves moves).eof_of_within ordered stops member
    exact ordered.arranged.text_eof t among atEnd
  rw [moves.within_eq on ordered some starts stops, shown_append, emptyRest, String.append_empty]

/-- In a point there is at most an end token, which shows nothing. -/
theorem shown_within_point {s : Span} {t : Token} (ordered : Token.InOrder 0 tokens)
    (point : s = t.span.point) : shown k (Token.within s tokens) = "" := by
  have arranged := ordered.arranged
  refine shown_eq_empty ?_
  intro x member
  obtain ⟨memberAll, inside⟩ := List.mem_filter.mp member
  rw [Span.contains_iff, point] at inside
  have bounds : t.span.start ≤ x.span.start ∧ x.span.stop ≤ t.span.start := inside
  by_cases atEnd : x.kind = .eof
  · exact arranged.text_eof x memberAll atEnd
  · have := arranged.start_lt x memberAll atEnd
    omega

/-- The text of a node is the text of the tokens in its span. -/
theorem ofTokens_text (moves : first.Moves segment last) (on : first.On tokens)
    (ordered : Token.InOrder 0 tokens) :
    (ofTokens k first last parts).text =
      shown k (Token.within (ofTokens k first last parts).span tokens) := by
  rw [ofTokens_shown moves]
  cases segment with
  | nil => rw [shown_within_point ordered (ofTokens_point moves), shown_eq_empty (by simp)]
  | cons t rest =>
      have some : t :: rest ≠ [] := List.cons_ne_nil _ _
      have cover := @ofTokens_cover tokens _ first last k parts moves on ordered some
      rw [shown_within moves on ordered some cover.1 cover.2]

end Node

end EntityFlow
