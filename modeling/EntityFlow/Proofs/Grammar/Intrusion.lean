import EntityFlow.Proofs.Grammar.Blocks
import EntityFlow.Proofs.Grammar.Placement
import EntityFlow.Proofs.Grammar.Shapes
import EntityFlow.Proofs.Token.Lines

/-!
# A foreign line in a block

A line that starts with a foreign token and holds no brace is put into a block, at one of its
places. What is read then is what was read before, with an error node for the line at that place
(`Passes.mended`):

* **in front** of the line nothing looks at it (`Accepts.undisturbed`);
* **the line** is broken at once, since no item starts with a foreign token (`Grammar.rejects`), and
  the recovery ends with it (`Recovery.toLine_line`);
* **behind** it the tokens are the same, so many bytes and one line further on (`Layout.shifted`).

`Grammar.resilient` checks all that depends on the grammar.
-/

namespace EntityFlow

/-! ## Broken at once -/

namespace Grammar

/-- Whether a grammar accepts nothing at a token of a kind. -/
def skips (k : Token.Kind) : Grammar → Bool
  | .done => true
  | .seq first second => first.skips k && second.skips k
  | .choose look yes no =>
      match look.decides (some k) with
      | some true => yes.skips k
      | some false => no.skips k
      | none => false
  | .many look _ => look.decides (some k) == some false
  | .last g => g.skips k
  | .markLine g => g.skips k
  | .recovering _ g => g.skips k
  | _ => false

/-- Whether a grammar breaks at once at a token of a kind. -/
def rejects (k : Token.Kind) : Grammar → Bool
  | .fail _ => true
  | .seq first second => first.rejects k || first.skips k && second.rejects k
  | .choose look yes no =>
      match look.decides (some k) with
      | some true => yes.rejects k
      | some false => no.rejects k
      | none => yes.rejects k && no.rejects k
  | .many look item => look.decides (some k) == some true && item.rejects k
  | .node lead _ _ body => lead.rejects k || lead.skips k && body.rejects k
  | .last g => g.rejects k
  | .atLeastOne _ g => g.rejects k
  | .markLine g => g.rejects k
  | _ => false

/-- The grammar behind the name of a construct. -/
def opened : Grammar → Grammar
  | .call rule => rule.grammar
  | g => g

section AtOnce

variable {k : Token.Kind} {c : Cursor}

theorem skips_accepts (g : Grammar) (line : Nat) (shows : c.Shows (some k))
    (skips : g.skips k = true) : Accepts g line c [] c := by
  induction g generalizing line with
  | done => exact .done
  | seq first second ihFirst ihSecond =>
      obtain ⟨one, two⟩ := Bool.and_eq_true_iff.mp skips
      exact .seq (ihFirst line one) (ihSecond line two)
  | choose look yes no ihYes ihNo =>
      unfold Grammar.skips at skips
      split at skips
      · rename_i decided
        exact .yes (Look.holds_of_decides shows decided) (ihYes line skips)
      · rename_i decided
        exact .no (Look.holds_of_decides shows decided) (ihNo line skips)
      · cases skips
  | many look item _ => exact .stop (Look.holds_of_decides shows (beq_iff_eq.mp skips))
  | last g ih => exact .last (ih line skips)
  | markLine g ih => exact .markLine (ih c.lineBefore skips)
  | recovering how g ih => exact .intact (ih line skips)
  | _ => cases skips

theorem rejects_reads (g : Grammar) (limit line : Nat) (faults : List Fault)
    (shows : c.Shows (some k)) (rejects : g.rejects k = true) :
    ∃ expected, Reads limit g line ⟨c, faults⟩ (.broken ⟨expected, c.current⟩ ⟨c, faults⟩) := by
  induction g generalizing line with
  | fail expected => exact ⟨expected, .fail⟩
  | seq first second ihFirst ihSecond =>
      rcases Bool.or_eq_true_iff.mp rejects with one | both
      · obtain ⟨expected, broken⟩ := ihFirst line one
        exact ⟨expected, .seqBroken broken⟩
      · obtain ⟨one, two⟩ := Bool.and_eq_true_iff.mp both
        have skipped := (skips_accepts first line shows one).reads limit faults
        obtain ⟨expected, broken⟩ := ihSecond line two
        exact ⟨expected, .seq skipped broken⟩
  | choose look yes no ihYes ihNo =>
      unfold Grammar.rejects at rejects
      split at rejects
      · rename_i decided
        obtain ⟨expected, broken⟩ := ihYes line rejects
        exact ⟨expected, .yes (Look.holds_of_decides shows decided) broken⟩
      · rename_i decided
        obtain ⟨expected, broken⟩ := ihNo line rejects
        exact ⟨expected, .no (Look.holds_of_decides shows decided) broken⟩
      · obtain ⟨rejectsYes, rejectsNo⟩ := Bool.and_eq_true_iff.mp rejects
        cases holds : look.holds line c with
        | true =>
            obtain ⟨expected, broken⟩ := ihYes line rejectsYes
            exact ⟨expected, .yes holds broken⟩
        | false =>
            obtain ⟨expected, broken⟩ := ihNo line rejectsNo
            exact ⟨expected, .no holds broken⟩
  | many look item ih =>
      obtain ⟨decided, rejectsItem⟩ := Bool.and_eq_true_iff.mp rejects
      obtain ⟨expected, broken⟩ := ih line rejectsItem
      exact ⟨expected, .moreBroken (Look.holds_of_decides shows (beq_iff_eq.mp decided)) broken⟩
  | node lead cases otherwise body ihLead ihBody =>
      rcases Bool.or_eq_true_iff.mp rejects with one | both
      · obtain ⟨expected, broken⟩ := ihLead line one
        exact ⟨expected, .leadBroken broken⟩
      · obtain ⟨one, two⟩ := Bool.and_eq_true_iff.mp both
        have skipped := (skips_accepts lead line shows one).reads limit faults
        obtain ⟨expected, broken⟩ := ihBody line two
        exact ⟨expected, .bodyBroken skipped broken⟩
  | last g ih =>
      obtain ⟨expected, broken⟩ := ih line rejects
      exact ⟨expected, .lastBroken broken⟩
  | atLeastOne _ g ih =>
      obtain ⟨expected, broken⟩ := ih line rejects
      exact ⟨expected, .atLeastOneBroken broken⟩
  | markLine g ih =>
      obtain ⟨expected, broken⟩ := ih c.lineBefore rejects
      exact ⟨expected, .markLine broken⟩
  | _ => cases rejects

theorem opened_rejects_reads (g : Grammar) (limit line : Nat) (faults : List Fault)
    (shows : c.Shows (some k)) (rejects : g.opened.rejects k = true) :
    ∃ expected, Reads limit g line ⟨c, faults⟩ (.broken ⟨expected, c.current⟩ ⟨c, faults⟩) := by
  cases g with
  | call rule =>
      obtain ⟨expected, broken⟩ := rule.grammar.rejects_reads limit 0 faults shows rejects
      exact ⟨expected, .call broken⟩
  | _ => exact rejects_reads _ limit line faults shows rejects

end AtOnce

end Grammar

/-! ## The end of a line -/

/-- In front of the next line, and in front of a closing brace, a recovery has come to the end of
the line. -/
theorem Recovery.toLine_line {l : Nat} {first u : Token} {line rest : List Token}
    (onLine : ∀ t ∈ first :: line, t.span.line = l ∧ t.span.endLine = l)
    (proper : ∀ t ∈ line, t.kind ≠ .eof ∧ t.kind ≠ .lBrace ∧ t.kind ≠ .rBrace)
    (closed : u.kind ≠ .lBrace) (behind : l < u.span.line) :
    toLine 0 (some first) (line ++ u :: rest) = ⟨(first :: line).getLast?, u :: rest⟩ := by
  induction line generalizing first with
  | nil =>
      have ends : first.span.endLine = l := (onLine first List.mem_cons_self).2
      have later : u.span.line > Token.lastLine (some first) := by
        show first.span.endLine < u.span.line
        omega
      cases rest with
      | nil => rfl
      | cons v rest =>
          rw [List.nil_append, toLine]
          split
          · rfl
          · rw [if_pos rfl]
            rfl
          · rename_i brace
            exact absurd brace closed
          · rw [if_pos ⟨rfl, later⟩]
            rfl
  | cons t line ih =>
      obtain ⟨notEnd, notOpen, notClose⟩ := proper t List.mem_cons_self
      have same : ¬t.span.line > Token.lastLine (some first) := by
        have ends : first.span.endLine = l := (onLine first List.mem_cons_self).2
        have starts : t.span.line = l := (onLine t (by simp)).1
        show ¬first.span.endLine < t.span.line
        omega
      have tail := ih (fun x member => onLine x (List.mem_cons_of_mem _ member))
        (fun x member => proper x (List.mem_cons_of_mem _ member))
      obtain ⟨v, more, following⟩ := List.exists_cons_of_ne_nil
        (show line ++ u :: rest ≠ [] by simp)
      rw [List.getLast?_cons_cons, ← tail, List.cons_append, following, toLine]
      split
      · contradiction
      · contradiction
      · contradiction
      · rw [if_neg fun both => same both.2]

/-! ## Behind the line -/

/-- The span from where one span starts to where another one ends. -/
def Span.upTo (s t : Span) : Span := ⟨s.start, t.stop, s.line, s.column, t.endLine, t.endColumn⟩

namespace Layout

variable {bytes bound : Nat}

/-- Behind a new line with the number after `bound` all places are so many bytes and one line
further on. Of the lines in front only that they are in front matters. -/
def shifted (bytes bound : Nat) : Layout where
  span s s' := s' = s.moved bytes 1 ∧ bound < s.line ∧ bound < s.endLine
  line l l' := (bound < l ∧ l' = l + 1) ∨ (l ≤ bound ∧ l' ≤ bound + 1)
  first := Span.moved bytes 1
  second := id
  kept := by
    rintro s s' ⟨rfl, _⟩
    rfl
  point := by
    rintro s s' ⟨rfl, starts, _⟩
    exact ⟨rfl, starts, starts⟩
  hull := by
    rintro s t s' t' ⟨rfl, starts, _⟩ ⟨rfl, _, ends⟩
    exact ⟨rfl, starts, ends⟩
  zero := Or.inr ⟨Nat.zero_le _, Nat.zero_le _⟩
  ends := by
    rintro s s' ⟨rfl, _, ends⟩
    exact Or.inl ⟨ends, rfl⟩
  same := by
    rintro s s' l l' ⟨rfl, starts, _⟩ lines
    show s.line = l ↔ s.line + 1 = l'
    omega
  later := by
    rintro s s' l l' ⟨rfl, starts, _⟩ lines
    show l < s.line ↔ l' < s.line + 1
    omega

/-- Lines in front of the new line correspond to themselves. -/
theorem shifted_inFront {l : Nat} (low : l ≤ bound) : (shifted bytes bound).line l l :=
  Or.inr ⟨low, Nat.le_succ_of_le low⟩

/-- Tokens behind the new line, which the first of them does not touch, correspond to the same
tokens further on. -/
theorem rows_shifted {before before' : Option Token} {ts : List Token}
    (behind : ∀ t ∈ ts, bound < t.span.line ∧ bound < t.span.endLine)
    (touch : ∀ t ∈ ts.head?, Token.touches before t = Token.touches before' (t.moved bytes 1)) :
    (shifted bytes bound).Rows before before' ts (ts.map (Token.moved bytes 1)) := by
  induction ts generalizing before before' with
  | nil => exact .nil
  | cons t ts ih =>
      refine .cons ⟨rfl, rfl, rfl, behind t List.mem_cons_self⟩ (touch t rfl) ?_
      refine ih (fun x member => behind x (List.mem_cons_of_mem _ member)) ?_
      intro u _
      show (t.span.stop == u.span.start) = (t.span.stop + bytes == u.span.start + bytes)
      rw [Bool.eq_iff_iff, beq_iff_eq, beq_iff_eq, Nat.add_right_cancel_iff]

theorem eq_moved_of_rows {before before' : Option Token} {ts ts' : List Token}
    (rows : (shifted bytes bound).Rows before before' ts ts') :
    ts' = ts.map (Token.moved bytes 1) := by
  induction rows with
  | nil => rfl
  | @cons _ _ t t' _ _ twin _ _ ih =>
      have same : t' = t.moved bytes 1 := by
        obtain ⟨kind, text, span, _⟩ := twin
        obtain ⟨kind', text', span'⟩ := t'
        cases kind
        cases text
        cases span
        rfl
      rw [List.map_cons, ← ih, same]

/-- Nodes behind the new line are the same nodes further on. -/
theorem eq_moved_of_nodes {ns ns' : List Node} (nodes : (shifted bytes bound).Nodes ns ns') :
    ns' = ns.map (Node.mapSpans (Span.moved bytes 1)) := by
  have kept : ns'.map (Node.mapSpans id) = ns' := by
    rw [← Node.mapSpansOf_eq, Node.mapSpansOf_id]
  exact kept.symm.trans nodes.symm

end Layout

/-! ## Trees with one more node -/

/-- The node for at least one token. -/
theorem Node.ofTokens_eq {segment : List Token} {first last : Cursor} {k : Kind}
    {parts : List Node} {head tail : Token} (moves : first.Moves segment last)
    (ordered : segment.Pairwise Token.Before) (starts : segment.head? = some head)
    (stops : segment.getLast? = some tail) :
    Node.ofTokens k first last parts =
      ⟨k, Node.shown k segment, head.span.upTo tail.span, parts⟩ := by
  unfold Node.ofTokens
  rw [moves.taken]
  simp only [starts, stops, Layout.cover_eq ordered starts stops]
  rfl

/-- The error node for some tokens. -/
def Node.broken (tokens : List Token) : Node :=
  Node.ofTokens .error (Cursor.start tokens) ⟨tokens.getLast?, []⟩ []

theorem Node.ofTokens_error {first last : Cursor} {segment : List Token}
    (moves : first.Moves segment last) (some : segment ≠ []) :
    Node.ofTokens .error first last [] = Node.broken segment := by
  have whole : (Cursor.start segment).taken ⟨segment.getLast?, []⟩ = segment := List.take_length
  obtain ⟨head, starts⟩ := Option.isSome_iff_exists.mp (List.isSome_head?.mpr some)
  have stops := List.getLast?_eq_some_getLast some
  unfold Node.broken Node.ofTokens
  rw [moves.taken, whole]
  simp only [starts, stops]

/-- What breaks at once as the first construct becomes an error node for what is given up, if more
faults are wanted. -/
theorem Reads.recovered_first {limit marked : Nat} {how : Recovery} {g : Grammar} {c next : Cursor}
    {fault : Fault} {segment : List Token}
    (broken : Reads limit g marked ⟨c, []⟩ (.broken fault ⟨c, []⟩)) (wanted : 2 ≤ limit)
    (resumed : how.resume c c = next) (moves : c.Moves segment next) (some : segment ≠ []) :
    Reads limit (.recovering how g) marked ⟨c, []⟩
      (.nodes [Node.broken segment] ⟨next, [fault]⟩) := by
  have record : Reading.record limit ⟨c, []⟩ fault = ⟨c, [fault]⟩ :=
    if_pos (Nat.lt_of_lt_of_le Nat.two_pos wanted)
  have place : Reading.resumed limit how c fault ⟨c, []⟩ = next := by
    have wantsMore : [fault].length < limit := wanted
    unfold Reading.resumed
    rw [record, if_pos wantsMore]
    exact resumed
  have reads : Reads limit (.recovering how g) marked ⟨c, []⟩ _ := .recovered broken
  rw [Reading.recover_eq, place, record, Node.ofTokens_error moves some] at reads
  exact reads

/-- Nodes that have one more node among them, behind which `shift` says where all others are now. It
is one of them, or else a part of `block`, which is one of them or a node below. This node and those
around it stretch over the new one, and their texts hold its text at that place. -/
inductive Node.Gains (extra : Node) (shift : Span → Span) :
    Option Node → List Node → List Node → Prop
  | here {front back} :
      Gains extra shift none (front ++ back) (front ++ extra :: back.map (mapSpans shift))
  | within {block front back k a b s parts parts'} : Gains extra shift block parts parts' →
      Gains extra shift (block <|> some ⟨k, a ++ b, s, parts⟩)
        (front ++ ⟨k, a ++ b, s, parts⟩ :: back)
        (front ++ ⟨k, a ++ extra.text ++ b, s.upTo (shift s), parts'⟩ ::
          back.map (mapSpans shift))

namespace Node.Gains

variable {extra : Node} {shift : Span → Span} {block : Option Node} {ns ns' : List Node}

theorem prepend (gains : Gains extra shift block ns ns') (more : List Node) :
    Gains extra shift block (more ++ ns) (more ++ ns') := by
  cases gains with
  | here =>
      rw [← List.append_assoc, ← List.append_assoc]
      exact .here
  | within inner =>
      rw [← List.append_assoc, ← List.append_assoc]
      exact .within inner

theorem append (gains : Gains extra shift block ns ns') (more : List Node) :
    Gains extra shift block (ns ++ more) (ns' ++ more.map (mapSpans shift)) := by
  cases gains with
  | here =>
      rw [List.append_assoc, List.append_assoc, List.cons_append, ← List.map_append]
      exact .here
  | within inner =>
      rw [List.append_assoc, List.append_assoc, List.cons_append, List.cons_append,
        ← List.map_append]
      exact .within inner

theorem ne_nil (gains : Gains extra shift block ns ns') : ns' ≠ [] := by
  cases gains <;> simp

end Node.Gains

/-! ## Putting the line in -/

/-- A line of its own that is put in front of some tokens. -/
structure Intrusion where
  /-- What follows the line. -/
  rest : List Token
  first : Token
  later : List Token
  /-- The bytes of the line. -/
  bytes : Nat
  /-- The last line in front. -/
  bound : Nat
  /-- Where the text in front stops. -/
  edge : Nat
  lined : 1 ≤ bound
  more : 2 ≤ rest.length
  foreign : first.kind = .unknown
  proper : ∀ t ∈ first :: later, t.kind ≠ .eof ∧ t.kind ≠ .lBrace ∧ t.kind ≠ .rBrace
  onLine : ∀ t ∈ first :: later, t.span.line = bound + 1 ∧ t.span.endLine = bound + 1
  apart : edge < first.span.start
  behind : ∀ t ∈ rest, edge < t.span.start ∧ bound < t.span.line ∧ bound < t.span.endLine
  separate : ∀ t ∈ first :: later, ∀ u ∈ rest, t.span.stop < u.span.start + bytes

namespace Intrusion

/-- The tokens of the line. -/
def line (I : Intrusion) : List Token := I.first :: I.later

/-- What follows, with the line in front of it. -/
def toBreak (I : Intrusion) : Break where
  rest := I.rest
  rest' := I.line ++ I.rest.map (Token.moved I.bytes 1)
  bound := I.bound
  edge := I.edge
  lined := I.lined
  more := I.more
  foreign := by
    have behind := (I.onLine I.first List.mem_cons_self).1
    exact ⟨I.first, _, rfl, I.foreign, by omega, I.apart⟩

/-- Two places with the same tokens up to the line. -/
structure At (I : Intrusion) (front : List Token) (c c' : Cursor) : Prop
    extends I.toBreak.At front c c' where
  ended : Token.Ended c.ahead
  ordered : c.ahead.Pairwise Token.Before
  ordered' : c'.ahead.Pairwise Token.Before

/-- After `c'` there is what follows `c` up to `d`, with an error node for the line in the block
that was passed. -/
def Mends (I : Intrusion) (limit : Nat) (block : Option Node) (g : Grammar) (marked : Nat)
    (c' : Cursor) (ns : List Node) (d : Cursor) : Prop :=
  ∃ expected ns' d', Reads limit g marked ⟨c', []⟩ (.nodes ns' ⟨d', [⟨expected, I.first⟩]⟩) ∧
    (Layout.shifted I.bytes I.bound).Cursors d d' ∧
    Node.Gains (Node.broken I.line) (Span.moved I.bytes 1) block ns ns'

variable {I : Intrusion} {b c c' d : Cursor} {front : List Token} {g : Grammar} {marked : Nat}
  {ns : List Node} {block : Option Node}

/-- What is accepted in front of the line is accepted without regard to it. -/
theorem At.undisturbed {base : Option Token.Kind → Nat} (place : I.At front c c')
    (accepts : Accepts g marked c ns d) (undisturbed : g.undisturbed base [] = true)
    (low : marked ≤ I.bound)
    (long : ∀ known, d.Shows known → I.rest.length + base known ≤ d.remaining) :
    ∃ later d', I.At later d d' ∧ Accepts g marked c' ns d' := by
  obtain ⟨later, d', placeNext, accepts'⟩ :=
    accepts.undisturbed undisturbed place.toAt place.ended low (.nil long)
  obtain ⟨segment, moves⟩ := accepts.moves
  have moves' := (place.toAt.moves placeNext moves).2
  have ordered := place.ordered
  have ordered' := place.ordered'
  rw [moves.ahead] at ordered
  rw [moves'.ahead] at ordered'
  exact ⟨later, d', ⟨placeNext, accepts.ended place.ended, (List.pairwise_append.mp ordered).2.1,
    (List.pairwise_append.mp ordered').2.1⟩, accepts'⟩

/-- Behind the line everything is accepted as before. -/
theorem accepts_behind {limit : Nat} {d' : Cursor} (accepts : Accepts g marked c ns d)
    (cursors : (Layout.shifted I.bytes I.bound).Cursors c d') (low : marked ≤ I.bound)
    (faults : List Fault) :
    ∃ e', Reads limit g marked ⟨d', faults⟩
        (.nodes (ns.map (Node.mapSpans (Span.moved I.bytes 1))) ⟨e', faults⟩) ∧
      (Layout.shifted I.bytes I.bound).Cursors d e' := by
  obtain ⟨ns', e', accepts', nodes, cursors'⟩ :=
    accepts.alike cursors (Layout.shifted_inFront low)
  rw [Layout.eq_moved_of_nodes nodes] at accepts'
  exact ⟨e', accepts'.reads limit faults, cursors'⟩

/-- Behind a construct with the line in it the next one is accepted as before. -/
theorem Mends.followed {limit line : Nat} {second : Grammar} {more : List Node} {e : Cursor}
    (mends : I.Mends limit block g marked c' ns d) (two : Accepts second line d more e)
    (low : line ≤ I.bound) :
    ∃ expected ns' d' e', Reads limit g marked ⟨c', []⟩ (.nodes ns' ⟨d', [⟨expected, I.first⟩]⟩) ∧
      Reads limit second line ⟨d', [⟨expected, I.first⟩]⟩
        (.nodes (more.map (Node.mapSpans (Span.moved I.bytes 1))) ⟨e', [⟨expected, I.first⟩]⟩) ∧
      (Layout.shifted I.bytes I.bound).Cursors d d' ∧
      (Layout.shifted I.bytes I.bound).Cursors e e' ∧
      Node.Gains (Node.broken I.line) (Span.moved I.bytes 1) block (ns ++ more)
        (ns' ++ more.map (Node.mapSpans (Span.moved I.bytes 1))) := by
  obtain ⟨expected, ns', d', one, cursors, gains⟩ := mends
  obtain ⟨e', two', cursors'⟩ := accepts_behind two cursors low [⟨expected, I.first⟩]
  exact ⟨expected, ns', d', e', one, two', cursors, cursors', gains.append _⟩

/-! ### At the line -/

/-- The place behind the line. -/
def next (I : Intrusion) : Cursor := ⟨I.line.getLast?, I.rest.map (Token.moved I.bytes 1)⟩

theorem exists_last (I : Intrusion) : ∃ last ∈ I.line, I.line.getLast? = some last :=
  ⟨_, List.getLast_mem (List.cons_ne_nil _ _), List.getLast?_eq_some_getLast _⟩

theorem rest_ne_nil (I : Intrusion) : I.rest ≠ [] := by
  intro nothing
  have more := I.more
  rw [nothing] at more
  exact absurd more (by decide)

theorem At.toNext (place : I.At [] b c') : c'.Moves I.line I.next := by
  refine ⟨place.ahead', ?_, fun _ => ?_⟩
  · obtain ⟨last, _, found⟩ := I.exists_last
    show I.line.getLast? = I.line.getLast?.or _
    rw [found]
    rfl
  · show I.rest.map _ ≠ []
    rw [Ne, List.map_eq_nil_iff]
    exact I.rest_ne_nil

theorem At.cursors_next (place : I.At [] b c') :
    (Layout.shifted I.bytes I.bound).Cursors b I.next := by
  obtain ⟨last, member, found⟩ := I.exists_last
  have ahead : b.ahead = I.rest := place.ahead
  have ends : I.next.lineBefore = I.bound + 1 := by
    show Token.lastLine I.line.getLast? = _
    rw [found]
    exact (I.onLine last member).2
  -- what follows touches neither the text in front nor the line
  have apart (t : Token) (follows : t ∈ I.rest) : Token.touches b.before t = false := by
    unfold Token.touches
    cases before : b.before with
    | none => rfl
    | some s =>
        have stops : s.span.stop ≤ I.edge := by
          refine (place.inFront s ?_).2
          rw [before]
          exact List.mem_append_left _ (by simp)
        have starts := (I.behind t follows).1
        simp only [Option.any_some, beq_eq_false_iff_ne]
        omega
  have apart' (t : Token) (follows : t ∈ I.rest) :
      Token.touches I.line.getLast? (t.moved I.bytes 1) = false := by
    have separate : last.span.stop < (t.moved I.bytes 1).span.start :=
      I.separate last member t follows
    rw [found]
    simp only [Token.touches, Option.any_some, beq_eq_false_iff_ne]
    omega
  have ordered' := place.ordered'
  rw [place.toNext.ahead] at ordered'
  refine ⟨?_, Or.inr ⟨place.lineBefore_le, Nat.le_of_eq ends⟩, ?_, place.ordered,
    (List.pairwise_append.mp ordered').2.1⟩
  · rw [ahead]
    refine Layout.rows_shifted (fun t member => (I.behind t member).2) ?_
    intro t first
    have follows := List.mem_of_mem_head? first
    rw [apart t follows]
    exact (apart' t follows).symm
  · rw [ahead]
    exact I.rest_ne_nil

/-- The recovery in front of the line gives up the line. -/
theorem At.resume_eq (place : I.At [] b c') (closed : b.current.kind ≠ .lBrace) :
    Recovery.line.resume c' c' = I.next := by
  have ahead : b.ahead = I.rest := place.ahead
  obtain ⟨u, more, rest⟩ := List.exists_cons_of_ne_nil I.rest_ne_nil
  have current : b.current = u := by
    unfold Cursor.current
    rw [ahead, rest]
    rfl
  rw [current] at closed
  have member : u ∈ I.rest := by
    rw [rest]
    exact List.mem_cons_self
  have restart : Recovery.restart c' c' =
      ⟨some I.first, I.later ++ I.rest.map (Token.moved I.bytes 1)⟩ := by
    have ahead' : c'.ahead = I.first :: (I.later ++ I.rest.map (Token.moved I.bytes 1)) :=
      place.ahead'
    have some : I.later ++ I.rest.map (Token.moved I.bytes 1) ≠ [] := by
      simp [I.rest_ne_nil]
    obtain ⟨before, ahead⟩ := c'
    cases ahead'
    exact Recovery.restart_self some
  have behind : I.bound + 1 < (u.moved I.bytes 1).span.line :=
    Nat.succ_lt_succ (I.behind u member).2.1
  rw [Recovery.resume_eq, restart]
  unfold next
  rw [rest]
  exact Recovery.toLine_line I.onLine (fun t member => I.proper t (List.mem_cons_of_mem _ member))
    closed behind

theorem At.current_eq (place : I.At [] b c') : c'.current = I.first := by
  unfold Cursor.current
  rw [place.toNext.ahead]
  rfl

/-- The line is broken at once and given up on its own. -/
theorem At.recovered {limit : Nat} {item : Grammar} (place : I.At [] b c')
    (closed : b.current.kind ≠ .lBrace) (rejects : item.opened.rejects .unknown = true)
    (wanted : 2 ≤ limit) :
    ∃ expected, Reads limit (.recovering .line item) marked ⟨c', []⟩
      (.nodes [Node.broken I.line] ⟨I.next, [⟨expected, I.first⟩]⟩) := by
  have shows : c'.Shows (some .unknown) := by
    rintro k ⟨⟩
    rw [place.current_eq]
    exact I.foreign
  obtain ⟨expected, broken⟩ := item.opened_rejects_reads limit marked [] shows rejects
  rw [place.current_eq] at broken
  exact ⟨expected, broken.recovered_first wanted (place.resume_eq closed) place.toNext
    (List.cons_ne_nil _ _)⟩

/-- Items that start with no open brace are accepted in front of none. -/
theorem closed_of_items {item : Grammar} (accepts : Accepts (.items item) marked b ns d)
    (rejects : item.opened.rejects .lBrace = true) : b.current.kind ≠ .lBrace := by
  intro opens
  have shows : b.Shows (some .lBrace) := by
    rintro k ⟨⟩
    exact opens
  obtain ⟨expected, broken⟩ := item.opened_rejects_reads 1 marked [] shows rejects
  unfold Grammar.items at accepts
  cases accepts with
  | stop fails => simp [Look.holds, opens] at fails
  | more _ one _ =>
      cases one with
      | intact one => cases (one.reads 1 []).unique broken

/-- At a place in a block the line becomes an error node in front of the items that follow. -/
theorem mends_here {limit : Nat} {item : Grammar} (place : I.At [] b c')
    (accepts : Accepts (.items item) marked b ns d) (low : marked ≤ I.bound)
    (rejects : item.opened.rejects .unknown = true)
    (rejectsOpen : item.opened.rejects .lBrace = true) (wanted : 2 ≤ limit) :
    I.Mends limit none (.items item) marked c' ns d := by
  have closed := closed_of_items accepts rejectsOpen
  obtain ⟨expected, recovered⟩ := place.recovered closed rejects wanted
  obtain ⟨e', rest, cursors⟩ :=
    accepts_behind accepts place.cursors_next low [⟨expected, I.first⟩]
  have holds : (Look.and (.not (.kind 0 .rBrace)) (.not (.kind 0 .eof))).holds marked c' =
      true := by
    simp [Look.holds, place.current_eq, I.foreign]
  exact ⟨expected, _, e', .more holds recovered rest, cursors, @Node.Gains.here _ _ [] ns⟩

/-! ### Around the line -/

/-- What the tokens of the line show in a node that is no documentation, the error node shows. -/
theorem shown_line {k : Node.Kind} (plain : k.isDocumentation = false) :
    Node.shown k I.line = (Node.broken I.line).text := by
  have whole : (Cursor.start I.line).taken ⟨I.line.getLast?, []⟩ = I.line := List.take_length
  have none : Node.Kind.error.isDocumentation = false := rfl
  unfold Node.broken Node.ofTokens Node.shown
  rw [whole, plain, none]

theorem shown_moved (k : Node.Kind) (tokens : List Token) (bytes lines : Nat) :
    Node.shown k (tokens.map (Token.moved bytes lines)) = Node.shown k tokens := by
  unfold Node.shown
  rw [List.filter_map, List.map_map]
  rfl

/-- What is read from in front of the line to behind it takes some of the tokens behind it, and
with the line it takes the same ones. -/
theorem At.segments {segment segment' : List Token} {e e' : Cursor} (place : I.At front c c')
    (moves : c.Moves segment e) (moves' : c'.Moves segment' e')
    (beyond : e.remaining < I.rest.length)
    (cursors : (Layout.shifted I.bytes I.bound).Cursors e e') :
    ∃ gap, gap ≠ [] ∧ segment = front ++ gap ∧
      segment' = front ++ (I.line ++ gap.map (Token.moved I.bytes 1)) := by
  unfold Cursor.remaining at beyond
  have whole : front ++ I.rest = segment ++ e.ahead := by
    rw [← moves.ahead]
    exact place.ahead.symm
  obtain ⟨gap, split, rest⟩ | ⟨_, _, more⟩ := List.append_eq_append_iff.mp whole
  · refine ⟨gap, ?_, split, ?_⟩
    · rintro rfl
      rw [rest, List.nil_append] at beyond
      exact Nat.lt_irrefl _ beyond
    · have ahead' := Layout.eq_moved_of_rows cursors.rows
      have whole' : c'.ahead = front ++ (I.line ++ I.rest.map (Token.moved I.bytes 1)) :=
        place.ahead'
      rw [moves'.ahead, ahead', rest, List.map_append] at whole'
      refine List.append_cancel_right (whole'.trans ?_)
      simp only [List.append_assoc]
  · rw [more, List.length_append] at beyond
    omega

/-- A node around the line. -/
theorem At.gains_node {segment segment' : List Token} {e e' : Cursor} {k : Node.Kind}
    {parts parts' : List Node} (place : I.At front c c') (some : front ≠ [])
    (moves : c.Moves segment e) (moves' : c'.Moves segment' e')
    (beyond : e.remaining < I.rest.length)
    (cursors : (Layout.shifted I.bytes I.bound).Cursors e e') (plain : k.isDocumentation = false)
    (gains : Node.Gains (Node.broken I.line) (Span.moved I.bytes 1) block parts parts') :
    Node.Gains (Node.broken I.line) (Span.moved I.bytes 1)
      (block <|> .some (Node.ofTokens k c e parts)) [Node.ofTokens k c e parts]
      [Node.ofTokens k c' e' parts'] := by
  obtain ⟨gap, someGap, rfl, rfl⟩ := place.segments moves moves' beyond cursors
  obtain ⟨head, tokens, rfl⟩ := List.exists_cons_of_ne_nil some
  obtain ⟨tail, last⟩ := Option.isSome_iff_exists.mp
    (show gap.getLast?.isSome = true by simp [someGap])
  have ordered := place.ordered
  have ordered' := place.ordered'
  rw [moves.ahead] at ordered
  rw [moves'.ahead] at ordered'
  rw [Node.ofTokens_eq moves (List.pairwise_append.mp ordered).1 rfl
      (by rw [List.getLast?_append, last]; rfl),
    Node.ofTokens_eq moves' (List.pairwise_append.mp ordered').1 rfl
      (by rw [List.getLast?_append, List.getLast?_append, List.getLast?_map, last]; rfl),
    Node.shown_append, Node.shown_append, Node.shown_append, shown_line plain, shown_moved,
    ← String.append_assoc]
  exact @Node.Gains.within _ _ block [] [] k _ _ _ parts parts' gains

end Intrusion

/-! ## Resilient grammars -/

/-- Whether the nodes for a construct with a block start in front of it, end behind it and are no
documentation. -/
def Grammar.encloses : Grammar → Bool
  | .node lead cases otherwise body =>
      (lead.blockless && body.blockless) ||
        (otherwise.toList ++ cases.map (·.2)).all (!·.isDocumentation) &&
          (decide (1 ≤ (node lead cases otherwise body).approach none) &&
            (node lead cases otherwise body).closes)
  | _ => false

/-- Whether a grammar accepts the same around a foreign line in one of its blocks: what stands in
front of the block is not disturbed, no item starts with a foreign token or an open brace, and the
nodes around the block go on before and after it. -/
def Grammar.resilient : Grammar → Bool
  | .done => true
  | .take => true
  | .fail _ => true
  | .seq first second =>
      (second.blockless || first.undisturbed second.approach []) &&
        (first.resilient && second.resilient)
  | .choose look yes no =>
      (yes.blockless && no.blockless || look.unswayed yes.approach no.approach) &&
        (yes.resilient && no.resilient)
  | .many look item =>
      (item.blockless ||
        let taken known := min (item.approach known) (item.least known)
        look.unswayed taken taken && item.undisturbed (many look item).approach []) &&
        item.resilient
  | .node lead cases otherwise body =>
      (node lead cases otherwise body).encloses &&
        ((body.blockless ||
          (cases.all fun (look, _) => look.unswayed body.approach body.approach) &&
            lead.undisturbed body.approach []) &&
          (lead.resilient && body.resilient))
  | .last g => g.blockless
  | .atLeastOne _ g => g.resilient
  | .markLine g => g.resilient
  | .recovering how g =>
      (how != .line || g.opened.rejects .unknown && g.opened.rejects .lBrace) && g.resilient
  | .call _ => true

theorem Rule.grammar_resilient (rule : Rule) : rule.grammar.resilient = true := by
  cases rule with
  | value => decide
  | argument => decide
  | field => decide
  | ruleItem => decide

theorem Language.grammar_resilient (language : Language) : language.grammar.resilient = true := by
  cases language with
  | entity => decide
  | flow => decide

namespace Passes

variable {I : Intrusion} {marked : Nat} {b c c' d : Cursor} {g lead body : Grammar}
  {block : Option Node} {front : List Token} {ns : List Node}

/-- Where a grammar comes to the block, so many tokens are left up to the line. -/
theorem toLine (passes : Passes b block g marked c ns d) (atLine : b.remaining = I.rest.length)
    (ended : Token.Ended c.ahead) (known : Option Token.Kind) (shows : c.Shows known) :
    I.rest.length + g.approach known ≤ c.remaining := by
  rw [← atLine]
  refine passes.approach_le ended ?_ shows
  rw [atLine]
  exact I.more

theorem approach_le_front (passes : Passes b block g marked c ns d)
    (atLine : b.remaining = I.rest.length) (place : I.At front c c') (known : Option Token.Kind)
    (shows : c.Shows known) : g.approach known ≤ front.length := by
  have atMost := passes.toLine atLine place.ended known shows
  have count : c.remaining = front.length + I.rest.length := place.toAt.forks.remaining
  omega

theorem least_le_front {first : Grammar} {line : Nat} {more : List Node} {e : Cursor}
    (passes : Passes b block g line d more e) (one : Accepts first marked c ns d)
    (atLine : b.remaining = I.rest.length) (place : I.At front c c') (known : Option Token.Kind)
    (shows : c.Shows known) : first.least known ≤ front.length := by
  have proper := passes.proper (one.ended place.ended) (by rw [atLine]; exact I.more)
  have atLeast := one.least_le place.ended proper shows
  have inFront := passes.remaining_le
  have count : c.remaining = front.length + I.rest.length := place.toAt.forks.remaining
  omega

/-- A node, if it is one, around the line. -/
theorem gains_wrap {cases : List (Look × Node.Kind)} {otherwise : Option Node.Kind}
    {all parts parts' : List Node} {owner : Option Node} {segment segment' : List Token}
    {e e' place' place'' : Cursor}
    (whole : Passes b owner (.node lead cases otherwise body) marked c all e)
    (atLine : b.remaining = I.rest.length)
    (encloses : (Grammar.node lead cases otherwise body).encloses = true)
    (place : I.At front c c') (moves : c.Moves segment e) (moves' : c'.Moves segment' e')
    (cursors : (Layout.shifted I.bytes I.bound).Cursors e e')
    (picks : Grammar.pick marked place'' otherwise cases =
      Grammar.pick marked place' otherwise cases)
    (gains : Node.Gains (Node.broken I.line) (Span.moved I.bytes 1) block parts parts') :
    Node.Gains (Node.broken I.line) (Span.moved I.bytes 1)
      (block <|> (Grammar.pick marked place' otherwise cases).map (Node.ofTokens · c e parts))
      (Node.wrap (Grammar.pick marked place' otherwise cases) c e parts)
      (Node.wrap (Grammar.pick marked place'' otherwise cases) c' e' parts') := by
  have blocks : (lead.blockless && body.blockless) = false := whole.not_blockless
  have around := (Bool.or_eq_true_iff.mp encloses).resolve_left (by rw [blocks]; decide)
  obtain ⟨plain, bounds⟩ := Bool.and_eq_true_iff.mp around
  obtain ⟨some, closes⟩ := Bool.and_eq_true_iff.mp bounds
  have beyond := whole.closes_lt place.ended closes
  rw [atLine] at beyond
  have someFront : front ≠ [] := by
    have atLeast := of_decide_eq_true some
    have := whole.approach_le_front atLine place none c.shows_none
    intro nothing
    rw [nothing, List.length_nil] at this
    omega
  rw [picks]
  cases picked : Grammar.pick marked place' otherwise cases with
  | none =>
      have same : (block <|> Option.map (Node.ofTokens · c e parts) none) = block := by
        cases block <;> rfl
      rw [same]
      exact gains
  | some k =>
      have plain := List.all_eq_true.mp plain k (Grammar.mem_kinds_of_pick picked)
      exact place.gains_node someFront moves moves' beyond cursors (by simpa using plain) gains

/-- **A foreign line in a block becomes an error node, and nothing else changes.** -/
theorem mended {limit : Nat} (passes : Passes b block g marked c ns d)
    (resilient : g.resilient = true) (place : I.At front c c')
    (atLine : b.remaining = I.rest.length) (low : marked ≤ I.bound) (wanted : 2 ≤ limit) :
    I.Mends limit block g marked c' ns d := by
  induction passes generalizing front c' with
  | @here item marked ns d accepts =>
      obtain rfl : front = [] := by
        have count : b.remaining = front.length + I.rest.length := place.toAt.forks.remaining
        exact List.length_eq_zero_iff.mp (by omega)
      obtain ⟨_, inner⟩ := Bool.and_eq_true_iff.mp resilient
      obtain ⟨rejects, _⟩ := Bool.and_eq_true_iff.mp inner
      obtain ⟨rejects, rejectsOpen⟩ := Bool.and_eq_true_iff.mp rejects
      exact Intrusion.mends_here place accepts low rejects rejectsOpen wanted
  | first _ two ih =>
      obtain ⟨_, both⟩ := Bool.and_eq_true_iff.mp resilient
      obtain ⟨expected, _, _, e', one, two', _, cursors, gains⟩ :=
        (ih (Bool.and_eq_true_iff.mp both).1 place low).followed two low
      exact ⟨expected, _, e', .seq one two', cursors, gains⟩
  | second one passes ih =>
      obtain ⟨either, both⟩ := Bool.and_eq_true_iff.mp resilient
      rw [passes.not_blockless] at either
      obtain ⟨later, d', placeNext, one'⟩ :=
        place.undisturbed one either low (passes.toLine atLine (one.ended place.ended))
      obtain ⟨expected, ns', e', two, cursors, gains⟩ :=
        ih (Bool.and_eq_true_iff.mp both).2 placeNext low
      exact ⟨expected, _, e', .seq (one'.reads limit []) two, cursors, gains.prepend _⟩
  | yes holds passes ih =>
      obtain ⟨either, both⟩ := Bool.and_eq_true_iff.mp resilient
      rw [passes.not_blockless] at either
      obtain ⟨expected, ns', d', reads, cursors, gains⟩ :=
        ih (Bool.and_eq_true_iff.mp both).1 place low
      have same := Look.holds_eq_of_unswayed place.toAt low either
        (fun _ => passes.approach_le_front atLine place)
        (fun fails => absurd (holds.symm.trans fails) (by decide))
      exact ⟨expected, ns', d', .yes (same.trans holds) reads, cursors, gains⟩
  | no fails passes ih =>
      obtain ⟨either, both⟩ := Bool.and_eq_true_iff.mp resilient
      rw [passes.not_blockless, Bool.and_false] at either
      obtain ⟨expected, ns', d', reads, cursors, gains⟩ :=
        ih (Bool.and_eq_true_iff.mp both).2 place low
      have same := Look.holds_eq_of_unswayed place.toAt low either
        (fun holds => absurd (holds.symm.trans fails) (by decide))
        (fun _ => passes.approach_le_front atLine place)
      exact ⟨expected, ns', d', .no (same.trans fails) reads, cursors, gains⟩
  | item holds passes rest ih =>
      obtain ⟨either, itemResilient⟩ := Bool.and_eq_true_iff.mp resilient
      rw [passes.not_blockless, Bool.false_or] at either
      obtain ⟨unswayed, _⟩ := Bool.and_eq_true_iff.mp either
      obtain ⟨expected, _, _, e', one, rest', _, cursors, gains⟩ :=
        (ih itemResilient place low).followed rest low
      have same := Look.holds_eq_of_unswayed place.toAt low unswayed
        (fun _ known shows => Nat.le_trans (Nat.min_le_left _ _)
          (passes.approach_le_front atLine place known shows))
        (fun fails => absurd (holds.symm.trans fails) (by decide))
      exact ⟨expected, _, e', .more (same.trans holds) one rest', cursors, gains⟩
  | @later o look item marked c ns d more e holds one passes ih =>
      obtain ⟨either, _⟩ := Bool.and_eq_true_iff.mp resilient
      have blocks : item.blockless = false := passes.not_blockless
      rw [blocks, Bool.false_or] at either
      obtain ⟨unswayed, undisturbed⟩ := Bool.and_eq_true_iff.mp either
      obtain ⟨later, d', placeNext, one'⟩ :=
        place.undisturbed one undisturbed low (passes.toLine atLine (one.ended place.ended))
      obtain ⟨expected, ns', e', rest, cursors, gains⟩ := ih resilient placeNext low
      have same := Look.holds_eq_of_unswayed place.toAt low unswayed
        (fun _ known shows => Nat.le_trans (Nat.min_le_right _ _)
          (passes.least_le_front one atLine place known shows))
        (fun fails => absurd (holds.symm.trans fails) (by decide))
      exact ⟨expected, _, e', .more (same.trans holds) (one'.reads limit []) rest, cursors,
        gains.prepend _⟩
  | @lead o lead cases otherwise body marked c ns d more e passes readsBody ih =>
      have whole : Passes b _ (.node lead cases otherwise body) marked c _ e :=
        .lead passes readsBody
      obtain ⟨encloses, others⟩ := Bool.and_eq_true_iff.mp resilient
      obtain ⟨_, both⟩ := Bool.and_eq_true_iff.mp others
      obtain ⟨expected, _, _, e', readsLead, readsBody', cursors, cursors', gains⟩ :=
        (ih (Bool.and_eq_true_iff.mp both).1 place low).followed readsBody low
      have reads : Reads limit (.node lead cases otherwise body) marked _ _ :=
        .node readsLead readsBody'
      obtain ⟨_, moves⟩ := whole.accepts.moves
      obtain ⟨_, moves'⟩ := reads.moves
      have picks := Layout.pick_eq cursors (Layout.shifted_inFront low) otherwise cases
      exact ⟨expected, _, e', reads, cursors',
        whole.gains_wrap atLine encloses place moves moves' cursors' picks.symm gains⟩
  | @body o lead cases otherwise body marked c ns d more e readsLead passes ih =>
      have whole : Passes b _ (.node lead cases otherwise body) marked c _ e :=
        .body readsLead passes
      obtain ⟨encloses, others⟩ := Bool.and_eq_true_iff.mp resilient
      obtain ⟨either, both⟩ := Bool.and_eq_true_iff.mp others
      rw [passes.not_blockless, Bool.false_or] at either
      obtain ⟨looks, undisturbed⟩ := Bool.and_eq_true_iff.mp either
      obtain ⟨later, d', placeNext, readsLead'⟩ :=
        place.undisturbed readsLead undisturbed low
          (passes.toLine atLine (readsLead.ended place.ended))
      obtain ⟨expected, ns', e', readsBody, cursors, gains⟩ :=
        ih (Bool.and_eq_true_iff.mp both).2 placeNext low
      have picks := @Grammar.pick_eq_of_unswayed _ _ _ _ _ otherwise _ _ placeNext.toAt low looks
        (passes.approach_le_front atLine placeNext)
      have reads : Reads limit (.node lead cases otherwise body) marked _ _ :=
        .node (readsLead'.reads limit []) readsBody
      obtain ⟨_, moves⟩ := whole.accepts.moves
      obtain ⟨_, moves'⟩ := reads.moves
      exact ⟨expected, _, e', reads, cursors,
        whole.gains_wrap atLine encloses place moves moves' cursors picks (gains.prepend _)⟩
  | @last _ g _ _ _ _ passes _ =>
      have blockless : g.blockless = true := resilient
      rw [passes.not_blockless] at blockless
      cases blockless
  | atLeastOne _ _ ih =>
      obtain ⟨expected, ns', d', reads, cursors, gains⟩ := ih resilient place low
      exact ⟨expected, ns', d', .atLeastOne reads gains.ne_nil, cursors, gains⟩
  | markLine _ ih =>
      obtain ⟨expected, ns', d', reads, cursors, gains⟩ :=
        ih resilient place place.toAt.lineBefore_le
      rw [← place.toAt.forks.lineBefore_eq] at reads
      exact ⟨expected, ns', d', .markLine reads, cursors, gains⟩
  | intact _ ih =>
      obtain ⟨expected, ns', d', reads, cursors, gains⟩ :=
        ih (Bool.and_eq_true_iff.mp resilient).2 place low
      exact ⟨expected, ns', d', .intact reads, cursors, gains⟩
  | @call _ rule _ _ _ _ _ ih =>
      obtain ⟨expected, ns', d', reads, cursors, gains⟩ :=
        ih rule.grammar_resilient place (Nat.zero_le _)
      exact ⟨expected, ns', d', .call reads, cursors, gains⟩

end Passes

end EntityFlow
