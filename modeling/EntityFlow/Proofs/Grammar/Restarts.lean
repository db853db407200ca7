import EntityFlow.Proofs.Grammar.Seams

/-!
# Restarts

What is accepted at the start of a row of tokens is accepted behind other tokens, too, at any bytes
and lines further on (`Accepts.further`). Two things make it so:

* **behind**: as long as no token was taken, no look asks where the token before it ends
  (`Grammar.blind`, `Accepts.regardless`);
* **ahead**: the same tokens further on correspond to the tokens at the start (`Layout.further`).
-/

namespace EntityFlow

/-! ## What stands behind -/

/-- Whether a look does not see the token before. -/
def Look.blind : Look → Bool
  | .adjacent | .sameLine => false
  | .not a => a.blind
  | .and a b => a.blind && b.blind
  | .or a b => a.blind && b.blind
  | .kind _ _ | .word _ _ | .onLine | .capitals => true

theorem Look.holds_eq_of_blind {look : Look} {line : Nat} {c c' : Cursor}
    (blind : look.blind = true) (same : c'.ahead = c.ahead) :
    look.holds line c' = look.holds line c := by
  have nth (n : Nat) : c'.nth n = c.nth n := by
    unfold Cursor.nth
    rw [same]
  have current : c'.current = c.current := by
    unfold Cursor.current
    rw [same]
  induction look with
  | not a ih =>
      unfold Look.holds
      rw [ih blind]
  | and a b ihA ihB =>
      obtain ⟨one, two⟩ := Bool.and_eq_true_iff.mp blind
      unfold Look.holds
      rw [ihA one, ihB two]
  | or a b ihA ihB =>
      obtain ⟨one, two⟩ := Bool.and_eq_true_iff.mp blind
      unfold Look.holds
      rw [ihA one, ihB two]
  | adjacent => cases blind
  | sameLine => cases blind
  | _ => simp only [Look.holds, nth, current]

/-- Whether a grammar does not see what stands behind it as long as it takes no token; `proper`
tells that it starts in front of a proper token. -/
def Grammar.blind : Grammar → Bool → Bool
  | .done, _ => true
  | .take, _ => true
  | .fail _, _ => true
  | .seq first second, proper =>
      first.blind proper &&
        (second.blind (proper && first.idle) || decide (1 ≤ first.count proper))
  | .choose look yes no, proper =>
      look.blind && (yes.blind (proper || look.tellsProper true) &&
        no.blind (proper || look.tellsProper false))
  | .many look item, _ => look.blind && item.blind (look.tellsProper true)
  | .node lead cases _ body, proper =>
      lead.blind proper &&
        ((cases.all (·.1.blind) && body.blind (proper && lead.idle)) ||
          decide (1 ≤ lead.count proper))
  | .last g, proper => g.blind proper
  | .atLeastOne _ g, proper => g.blind proper
  | .recovering _ g, proper => g.blind proper
  | .markLine _, _ => false
  | .call _, _ => false

/-- Two places have the same tokens ahead, and they are the same place if a token was taken since
the first one. -/
def Cursor.Meets (first : Cursor) (c c' : Cursor) : Prop :=
  c'.ahead = c.ahead ∧ (c.remaining < first.remaining → c' = c)

namespace Accepts

variable {g second : Grammar} {line : Nat} {c c' d d' e : Cursor} {ns more : List Node}

theorem eq_or_remaining_lt (accepts : Accepts g line c ns d) :
    d = c ∨ d.remaining < c.remaining := by
  obtain ⟨segment, moves⟩ := accepts.moves
  by_cases some : segment = []
  · rw [some] at moves
    exact Or.inl moves.eq_of_nil
  · exact Or.inr (moves.remaining_lt_iff.mpr some)

/-- What follows is accepted regardless of what stands behind as well, at once or because a token
was taken. -/
theorem meets_second (one : Accepts g line c ns d) (two : Accepts second line d more e)
    (meets : c.Meets d d')
    (either : d = c → ∃ e', Accepts second line d' more e' ∧ d.Meets e e') :
    ∃ e', Accepts second line d' more e' ∧ c.Meets e e' := by
  rcases one.eq_or_remaining_lt with same | taken
  · obtain ⟨e', two', meets'⟩ := either same
    rw [same] at meets'
    exact ⟨e', two', meets'⟩
  · rw [meets.2 taken]
    exact ⟨e, two, rfl, fun _ => rfl⟩

/-- What has to hold unless a grammar takes a token holds where it took none. -/
theorem holds_of_stays {other proper : Bool} (accepts : Accepts g line c ns d)
    (ended : Token.Ended c.ahead) (isProper : proper = true → c.Proper)
    (either : (other || decide (1 ≤ g.count proper)) = true) (stays : d = c) : other = true := by
  refine (Bool.or_eq_true_iff.mp either).resolve_right fun some => ?_
  have taken := accepts.count_le ended isProper
  have := of_decide_eq_true some
  rw [stays] at taken
  omega

/-- The node around the same tokens is the same one. -/
theorem wrap_eq {kind : Option Node.Kind} {children : List Node} (accepts : Accepts g line c ns d)
    (accepts' : Accepts second line c' more d') (same : c'.ahead = c.ahead)
    (meets : c.Meets d d') : Node.wrap kind c' d' children = Node.wrap kind c d children := by
  obtain ⟨segment, moves⟩ := accepts.moves
  obtain ⟨segment', moves'⟩ := accepts'.moves
  obtain rfl : segment' = segment := by
    have ahead := moves'.ahead
    rw [same, moves.ahead, meets.1] at ahead
    exact (List.append_cancel_right ahead).symm
  have current : d'.current = d.current := by
    unfold Cursor.current
    rw [meets.1]
  exact Node.wrap_congr moves moves' fun _ => current

/-- **As long as it takes no token, a blind grammar is accepted regardless of what stands
behind.** -/
theorem regardless {proper : Bool} (accepts : Accepts g line c ns d)
    (blind : g.blind proper = true) (ended : Token.Ended c.ahead)
    (isProper : proper = true → c.Proper) (same : c'.ahead = c.ahead) :
    ∃ d', Accepts g line c' ns d' ∧ c.Meets d d' := by
  induction accepts generalizing proper c' with
  | done => exact ⟨c', .done, same, fun less => absurd less (Nat.lt_irrefl _)⟩
  | @take line c =>
      refine ⟨_, .take, ?_⟩
      obtain ⟨before, ahead⟩ := c
      obtain ⟨before', ahead'⟩ := c'
      cases same
      match ahead with
      | [] => exact ⟨rfl, fun less => absurd less (Nat.lt_irrefl _)⟩
      | [t] => exact ⟨rfl, fun less => absurd less (Nat.lt_irrefl _)⟩
      | t :: u :: rest => exact ⟨rfl, fun _ => rfl⟩
  | @seq first second line c ns d more e one two ihOne ihTwo =>
      obtain ⟨blindOne, either⟩ := Bool.and_eq_true_iff.mp blind
      obtain ⟨d', one', meets⟩ := ihOne blindOne ended isProper same
      obtain ⟨e', two', meets'⟩ := one.meets_second two meets fun stays =>
        ihTwo (one.holds_of_stays ended isProper either stays) (one.ended ended)
          ((one.reads 1 []).proper_after isProper) meets.1
      exact ⟨e', .seq one' two', meets'⟩
  | @yes _ _ _ line c _ _ holds reads ih =>
      obtain ⟨sees, both⟩ := Bool.and_eq_true_iff.mp blind
      obtain ⟨d', reads', meets⟩ := ih (Bool.and_eq_true_iff.mp both).1 ended
        (Reads.proper_or (r := ⟨c, []⟩) ended isProper holds) same
      exact ⟨d', .yes ((Look.holds_eq_of_blind sees same).trans holds) reads', meets⟩
  | @no _ _ _ line c _ _ fails reads ih =>
      obtain ⟨sees, both⟩ := Bool.and_eq_true_iff.mp blind
      obtain ⟨d', reads', meets⟩ := ih (Bool.and_eq_true_iff.mp both).2 ended
        (Reads.proper_or (r := ⟨c, []⟩) ended isProper fails) same
      exact ⟨d', .no ((Look.holds_eq_of_blind sees same).trans fails) reads', meets⟩
  | stop fails =>
      obtain ⟨sees, _⟩ := Bool.and_eq_true_iff.mp blind
      exact ⟨c', .stop ((Look.holds_eq_of_blind sees same).trans fails), same,
        fun less => absurd less (Nat.lt_irrefl _)⟩
  | more holds one rest ihItem ihRest =>
      obtain ⟨sees, blindItem⟩ := Bool.and_eq_true_iff.mp blind
      obtain ⟨d', one', meets⟩ :=
        ihItem blindItem ended (fun tells => Look.proper_of_holds ended tells holds) same
      obtain ⟨e', rest', meets'⟩ := one.meets_second rest meets fun _ =>
        @ihRest _ false blind (one.ended ended) nofun meets.1
      exact ⟨e', .more ((Look.holds_eq_of_blind sees same).trans holds) one' rest', meets'⟩
  | @node lead cases otherwise body line c ns d more e readsLead readsBody ihLead ihBody =>
      obtain ⟨blindLead, either⟩ := Bool.and_eq_true_iff.mp blind
      obtain ⟨d', readsLead', meets⟩ := ihLead blindLead ended isProper same
      have others (stays : d = c) := readsLead.holds_of_stays ended isProper either stays
      have picked : Grammar.pick line d' otherwise cases = Grammar.pick line d otherwise cases := by
        rcases readsLead.eq_or_remaining_lt with stays | taken
        · refine Grammar.pick_congr fun look member => ?_
          obtain ⟨entry, among, rfl⟩ := List.mem_map.mp member
          have looks := (Bool.and_eq_true_iff.mp (others stays)).1
          exact Look.holds_eq_of_blind (List.all_eq_true.mp looks entry among) meets.1
        · rw [meets.2 taken]
      obtain ⟨e', readsBody', meets'⟩ := readsLead.meets_second readsBody meets fun stays =>
        ihBody (Bool.and_eq_true_iff.mp (others stays)).2 (readsLead.ended ended)
          ((readsLead.reads 1 []).proper_after isProper) meets.1
      have whole : Accepts (.node lead cases otherwise body) line c _ e := .node readsLead readsBody
      have whole' : Accepts (.node lead cases otherwise body) line c' _ e' :=
        .node readsLead' readsBody'
      refine ⟨e', ?_, meets'⟩
      rw [← whole.wrap_eq whole' same meets', ← picked]
      exact whole'
  | last _ ih =>
      obtain ⟨d', reads', meets⟩ := ih blind ended isProper same
      exact ⟨d', .last reads', meets⟩
  | atLeastOne _ some ih =>
      obtain ⟨d', reads', meets⟩ := ih blind ended isProper same
      exact ⟨d', .atLeastOne reads' some, meets⟩
  | intact _ ih =>
      obtain ⟨d', reads', meets⟩ := ih blind ended isProper same
      exact ⟨d', .intact reads', meets⟩
  | markLine => cases blind
  | call => cases blind

end Accepts

/-! ## Further on -/

namespace Layout

variable {bytes lines : Nat}

/-- All places are so many bytes and lines further on. -/
def further (bytes lines : Nat) : Layout where
  span s s' := s' = s.moved bytes lines ∧ 1 ≤ s.line ∧ 1 ≤ s.endLine
  line l l' := (1 ≤ l ∧ l' = l + lines) ∨ (l = 0 ∧ l' = 0)
  first := Span.moved bytes lines
  second := id
  kept := by
    rintro s s' ⟨rfl, _⟩
    rfl
  point := by
    rintro s s' ⟨rfl, starts, _⟩
    exact ⟨rfl, starts, starts⟩
  hull := by
    rintro s t s' t' ⟨rfl, starts, _⟩ ⟨rfl, _, ends⟩
    exact ⟨rfl, starts, ends⟩
  zero := Or.inr ⟨rfl, rfl⟩
  ends := by
    rintro s s' ⟨rfl, _, ends⟩
    exact Or.inl ⟨ends, rfl⟩
  same := by
    rintro s s' l l' ⟨rfl, starts, _⟩ related
    show s.line = l ↔ s.line + lines = l'
    omega
  later := by
    rintro s s' l l' ⟨rfl, starts, _⟩ related
    show l < s.line ↔ l' < s.line + lines
    omega

/-- The same tokens further on, the first of which touches nothing in either row. -/
theorem rows_further {before before' : Option Token} {ts : List Token}
    (numbered : ∀ t ∈ ts, 1 ≤ t.span.line ∧ 1 ≤ t.span.endLine)
    (touch : ∀ t ∈ ts.head?,
      Token.touches before t = Token.touches before' (t.moved bytes lines)) :
    (further bytes lines).Rows before before' ts (ts.map (Token.moved bytes lines)) := by
  induction ts generalizing before before' with
  | nil => exact .nil
  | cons t ts ih =>
      refine .cons ⟨rfl, rfl, rfl, numbered t List.mem_cons_self⟩ (touch t rfl) ?_
      refine ih (fun x member => numbered x (List.mem_cons_of_mem _ member)) ?_
      intro u _
      show (t.span.stop == u.span.start) = (t.span.stop + bytes == u.span.start + bytes)
      rw [Bool.eq_iff_iff, beq_iff_eq, beq_iff_eq, Nat.add_right_cancel_iff]

/-- Nodes further on are the same nodes with their spans moved. -/
theorem eq_moved_of_nodes_further {ns ns' : List Node}
    (nodes : (further bytes lines).Nodes ns ns') :
    ns' = ns.map (Node.mapSpans (Span.moved bytes lines)) := by
  have kept : ns'.map (Node.mapSpans id) = ns' := by
    rw [← Node.mapSpansOf_eq, Node.mapSpansOf_id]
  exact kept.symm.trans nodes.symm

end Layout

theorem Token.Ended.moved {ts : List Token} (ended : Token.Ended ts) (bytes lines : Nat) :
    Token.Ended (ts.map (Token.moved bytes lines)) := by
  match ts with
  | [t] => exact ended
  | t :: u :: rest => exact ⟨ended.1, Token.Ended.moved ended.2 bytes lines⟩

/-- **What is accepted at the start is accepted further on, whatever stands in front of it.** -/
theorem Accepts.further {g : Grammar} {ts : List Token} {ns : List Node} {d : Cursor}
    {bytes lines : Nat} (accepts : Accepts g 0 (Cursor.start ts) ns d)
    (blind : g.blind false = true) (ordered : Token.InOrder 0 ts)
    (numbered : ∀ t ∈ ts, 1 ≤ t.span.line ∧ 1 ≤ t.span.endLine) (some : 1 ≤ bytes)
    (before : Option Token) :
    ∃ d', Accepts g 0 ⟨before, ts.map (Token.moved bytes lines)⟩
      (ns.map (Node.mapSpans (Span.moved bytes lines))) d' := by
  -- a token that ends on the line from which all lines are counted, and touches none
  let mark : Token := ⟨.unknown, "", ⟨0, 0, 0, 0, lines + 1, 0⟩⟩
  have apart := ordered.arranged.before
  have cursors : (Layout.further bytes lines).Cursors (Cursor.start ts)
      ⟨.some mark, ts.map (Token.moved bytes lines)⟩ := by
    refine ⟨Layout.rows_further numbered ?_, ?_, ordered.ended.ne_nil, apart, ?_⟩
    · intro t _
      show false = (0 == t.span.start + bytes)
      rw [eq_comm, beq_eq_false_iff_ne]
      omega
    · exact Or.inl ⟨Nat.le_refl 1, Nat.add_comm _ _⟩
    · refine List.pairwise_map.mpr (apart.imp ?_)
      intro s t both
      exact ⟨Nat.add_le_add_right both.1 _, Nat.add_le_add_right both.2 _⟩
  obtain ⟨ns', _, further, nodes, _⟩ := accepts.alike cursors (Layout.further bytes lines).zero
  rw [Layout.eq_moved_of_nodes_further nodes] at further
  have same : (Cursor.mk before (ts.map (Token.moved bytes lines))).ahead =
    (Cursor.mk (.some mark) (ts.map (Token.moved bytes lines))).ahead := rfl
  obtain ⟨d', regardless, _⟩ :=
    further.regardless blind (ordered.ended.moved bytes lines) nofun same
  exact ⟨d', regardless⟩

end EntityFlow
