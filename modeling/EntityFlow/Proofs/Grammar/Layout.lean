import Mathlib.Data.List.Forall2
import EntityFlow.Proofs.Grammar.Derivation
import EntityFlow.Proofs.Grammar.Forks
import EntityFlow.Proofs.Grammar.Placement
import EntityFlow.Proofs.Token.Order
import EntityFlow.Proofs.Tree.Spans

/-!
# Two layouts of one text

Reading asks little of the place of a token: whether it touches the token before, and whether it is
on the line on which another one ends, or behind it. Two rows of tokens that agree on kinds and
texts and in the answers to these questions are read in the same way (`Reads.alike`).

A `Layout` says which spans and lines correspond to each other in two such rows. What corresponds
to a taken token, to a fault, to a node and to the place of a recovery follows from it; the nodes
agree in all but their spans, and these as far as the layout keeps them.
-/

namespace EntityFlow

/-- Whether a token starts where the token before it ends. -/
def Token.touches (before : Option Token) (t : Token) : Bool :=
  before.any (·.span.stop == t.span.start)

/-- A token starts and ends no later than another one. -/
def Token.Before (s t : Token) : Prop :=
  s.span.start ≤ t.span.start ∧ s.span.stop ≤ t.span.stop

/-- Tokens in the order of a source start and end in this order. -/
theorem Token.Arranged.before {lower : Nat} {tokens : List Token}
    (arranged : Token.Arranged lower tokens) : tokens.Pairwise Token.Before := by
  refine arranged.apart.imp_of_mem ?_
  intro s t memberS memberT apart
  have proper := arranged.start_le memberS
  have proper' := arranged.start_le memberT
  exact ⟨by omega, by omega⟩

/-- How the places in one row of tokens correspond to those in another row. -/
structure Layout where
  /-- The spans that correspond to each other. -/
  span : Span → Span → Prop
  /-- The lines that correspond to each other, as ends of tokens and as marked lines. -/
  line : Nat → Nat → Prop
  /-- What is kept of the spans of the first row. -/
  first : Span → Span
  /-- What is kept of the spans of the second row. -/
  second : Span → Span
  kept : ∀ {s s'}, span s s' → first s = second s'
  point : ∀ {s s'}, span s s' → span s.point s'.point
  hull : ∀ {s t s' t'}, span s s' → span t t' →
    span ⟨s.start, t.stop, s.line, s.column, t.endLine, t.endColumn⟩
      ⟨s'.start, t'.stop, s'.line, s'.column, t'.endLine, t'.endColumn⟩
  zero : line 0 0
  ends : ∀ {s s'}, span s s' → line s.endLine s'.endLine
  same : ∀ {s s' l l'}, span s s' → line l l' → (s.line = l ↔ s'.line = l')
  later : ∀ {s s' l l'}, span s s' → line l l' → (l < s.line ↔ l' < s'.line)

namespace Layout

variable (L : Layout)

/-! ## What corresponds to what -/

/-- Tokens of one kind and text at places that correspond. -/
structure Tokens (t t' : Token) : Prop where
  kind : t.kind = t'.kind
  text : t.text = t'.text
  span : L.span t.span t'.span

/-- Rows of tokens after given ones, that correspond token by token and touch at the same places. -/
inductive Rows : Option Token → Option Token → List Token → List Token → Prop
  | nil {before before'} : Rows before before' [] []
  | cons {before before' t t' rest rest'} : L.Tokens t t' →
      Token.touches before t = Token.touches before' t' →
      Rows (some t) (some t') rest rest' → Rows before before' (t :: rest) (t' :: rest')

/-- Places in rows that correspond. -/
structure Cursors (c c' : Cursor) : Prop where
  rows : L.Rows c.before c'.before c.ahead c'.ahead
  line : L.line c.lineBefore c'.lineBefore
  nonempty : c.ahead ≠ []
  ordered : c.ahead.Pairwise Token.Before
  ordered' : c'.ahead.Pairwise Token.Before

/-- Faults of one kind at tokens that correspond. -/
structure Faults (f f' : Fault) : Prop where
  expected : f.expected = f'.expected
  found : L.Tokens f.found f'.found

/-- Places with faults that correspond one by one. -/
structure Readings (r r' : Reading) : Prop where
  cursor : L.Cursors r.cursor r'.cursor
  faults : List.Forall₂ L.Faults r.faults r'.faults

/-- Nodes that agree but for their spans, and in these as far as they are kept. -/
def Nodes (ns ns' : List Node) : Prop :=
  ns.map (Node.mapSpans L.first) = ns'.map (Node.mapSpans L.second)

/-- Outcomes that correspond. -/
inductive Outcomes : Outcome → Outcome → Prop
  | nodes {ns ns' r r'} : L.Nodes ns ns' → L.Readings r r' →
      Outcomes (.nodes ns r) (.nodes ns' r')
  | broken {fault fault' r r'} : L.Faults fault fault' → L.Readings r r' →
      Outcomes (.broken fault r) (.broken fault' r')

end Layout

namespace Layout

variable {L : Layout}

/-! ## Tokens -/

namespace Rows

variable {before before' : Option Token} {ahead ahead' : List Token}

theorem forall₂ (rows : L.Rows before before' ahead ahead') :
    List.Forall₂ L.Tokens ahead ahead' := by
  induction rows with
  | nil => exact .nil
  | cons twins _ _ ih => exact .cons twins ih

theorem length_eq (rows : L.Rows before before' ahead ahead') : ahead.length = ahead'.length :=
  rows.forall₂.length_eq

end Rows

/-- The last ones of tokens that correspond. -/
theorem getLast?_tokens {ts ts' : List Token} (twins : List.Forall₂ L.Tokens ts ts') :
    Option.Rel L.Tokens ts.getLast? ts'.getLast? := by
  induction twins with
  | nil => exact .none
  | @cons t t' rest rest' twin twins ih =>
      cases twins with
      | nil => exact .some twin
      | cons twin twins =>
          rw [List.getLast?_cons_cons, List.getLast?_cons_cons]
          exact ih

theorem getElem?_tokens {ts ts' : List Token} (twins : List.Forall₂ L.Tokens ts ts') (n : Nat) :
    Option.Rel L.Tokens ts[n]? ts'[n]? := by
  induction twins generalizing n with
  | nil => exact .none
  | cons twin _ ih =>
      cases n with
      | zero => exact .some twin
      | succ n => exact ih n

/-- What documentation nodes and other nodes show of tokens that correspond. -/
theorem shown_eq {ts ts' : List Token} (twins : List.Forall₂ L.Tokens ts ts') (k : Node.Kind) :
    (ts.filter fun t => k.isDocumentation || t.kind != .javadoc).map (·.text) =
      (ts'.filter fun t => k.isDocumentation || t.kind != .javadoc).map (·.text) := by
  induction twins with
  | nil => rfl
  | @cons t t' rest rest' twin _ ih =>
      rw [List.filter_cons, List.filter_cons, twin.kind]
      split
      · rw [List.map_cons, List.map_cons, twin.text, ih]
      · exact ih

namespace Cursors

variable {c c' : Cursor}

theorem remaining_eq (cursors : L.Cursors c c') : c.remaining = c'.remaining :=
  cursors.rows.length_eq

theorem nth (cursors : L.Cursors c c') (n : Nat) : L.Tokens (c.nth n) (c'.nth n) := by
  have twins := cursors.rows.forall₂
  unfold Cursor.nth
  generalize found : c.ahead[n]? = t
  generalize found' : c'.ahead[n]? = t'
  have at_n := getElem?_tokens twins n
  rw [found, found'] at at_n
  cases at_n with
  | some twin => exact twin
  | none =>
      have last := getLast?_tokens twins
      rw [List.getLastD_eq_getLast?, List.getLastD_eq_getLast?]
      generalize found : c.ahead.getLast? = t at last ⊢
      generalize c'.ahead.getLast? = t' at last ⊢
      cases last with
      | some twin => exact twin
      | none => exact absurd (List.getLast?_eq_none_iff.mp found) cursors.nonempty

theorem current (cursors : L.Cursors c c') : L.Tokens c.current c'.current := by
  rw [← c.nth_zero, ← c'.nth_zero]
  exact cursors.nth 0

theorem adjacent_eq (cursors : L.Cursors c c') : c.adjacent = c'.adjacent := by
  obtain ⟨rows, _, nonempty, _, _⟩ := cursors
  obtain ⟨before, ahead⟩ := c
  obtain ⟨before', ahead'⟩ := c'
  cases rows with
  | nil => exact absurd rfl nonempty
  | cons _ touching _ => exact touching

/-- The places after the current token. -/
theorem advance (cursors : L.Cursors c c') : L.Cursors c.advance c'.advance := by
  obtain ⟨rows, line, nonempty, ordered, ordered'⟩ := cursors
  obtain ⟨before, ahead⟩ := c
  obtain ⟨before', ahead'⟩ := c'
  cases rows with
  | nil => exact absurd rfl nonempty
  | cons twin touching rows =>
      cases rows with
      | nil => exact ⟨.cons twin touching .nil, line, nonempty, ordered, ordered'⟩
      | cons twinNext touchingNext rows =>
          exact ⟨.cons twinNext touchingNext rows, L.ends twin.span, List.cons_ne_nil _ _,
            ordered.of_cons, ordered'.of_cons⟩

end Cursors

end Layout

/-! ## Looks -/

namespace Layout

variable {L : Layout} {c c' : Cursor} {line line' : Nat}

/-- A look has one answer at places that correspond. -/
theorem holds_eq (cursors : L.Cursors c c') (lines : L.line line line') (look : Look) :
    look.holds line c = look.holds line' c' := by
  have current := cursors.current
  induction look with
  | kind n k =>
      unfold Look.holds
      rw [(cursors.nth n).kind]
  | word n ws =>
      unfold Look.holds
      rw [(cursors.nth n).kind, (cursors.nth n).text]
  | adjacent => exact cursors.adjacent_eq
  | sameLine =>
      have same := L.same current.span cursors.line
      simp only [Look.holds, beq_eq_decide, same]
  | onLine =>
      have same := L.same current.span lines
      simp only [Look.holds, beq_eq_decide, same]
  | capitals =>
      unfold Look.holds
      rw [current.text]
  | not a ih =>
      unfold Look.holds
      rw [ih]
  | and a b ihA ihB =>
      unfold Look.holds
      rw [ihA, ihB]
  | or a b ihA ihB =>
      unfold Look.holds
      rw [ihA, ihB]

theorem pick_eq (cursors : L.Cursors c c') (lines : L.line line line')
    (otherwise : Option Node.Kind) (cases : List (Look × Node.Kind)) :
    Grammar.pick line c otherwise cases = Grammar.pick line' c' otherwise cases :=
  Grammar.pick_congr fun look _ => holds_eq cursors lines look

/-! ## Recoveries -/

section Recoveries

variable {before before' : Option Token} {ahead ahead' : List Token}

/-- One token is ahead in both rows, or at least two, of which the first can be taken. -/
theorem Cursors.split (cursors : L.Cursors ⟨before, ahead⟩ ⟨before', ahead'⟩) :
    (∃ t t', ahead = [t] ∧ ahead' = [t']) ∨
      ∃ t u rest t' u' rest', ahead = t :: u :: rest ∧ ahead' = t' :: u' :: rest' ∧
        L.Tokens t t' ∧ L.Cursors ⟨some t, u :: rest⟩ ⟨some t', u' :: rest'⟩ := by
  have next := cursors.advance
  obtain ⟨rows, _, nonempty, _, _⟩ := cursors
  cases rows with
  | nil => exact absurd rfl nonempty
  | cons twin _ rows =>
      cases rows with
      | nil => exact Or.inl ⟨_, _, rfl, rfl⟩
      | cons => exact Or.inr ⟨_, _, _, _, _, _, rfl, rfl, twin, next⟩

/-- The places of the end token. -/
theorem toEnd (cursors : L.Cursors ⟨before, ahead⟩ ⟨before', ahead'⟩) :
    L.Cursors (Recovery.toEnd before ahead) (Recovery.toEnd before' ahead') := by
  induction ahead generalizing before before' ahead' with
  | nil => exact absurd rfl cursors.nonempty
  | cons t rest ih =>
      rcases cursors.split with ⟨_, _, one, rfl⟩ | ⟨t, u, rest, t', u', rest', two, rfl, twin, next⟩
      · cases one
        exact cursors
      · cases two
        unfold Recovery.toEnd
        rw [twin.kind]
        split
        · exact cursors
        · exact ih next

/-- The places after the rest of a line. -/
theorem toLine (depth : Nat) (cursors : L.Cursors ⟨before, ahead⟩ ⟨before', ahead'⟩) :
    L.Cursors (Recovery.toLine depth before ahead) (Recovery.toLine depth before' ahead') := by
  induction ahead generalizing depth before before' ahead' with
  | nil => exact absurd rfl cursors.nonempty
  | cons t rest ih =>
      rcases cursors.split with ⟨_, _, one, rfl⟩ | ⟨t, u, rest, t', u', rest', two, rfl, twin, next⟩
      · cases one
        exact cursors
      · cases two
        -- a token behind the line of the one before it is behind it in both rows
        have behind : t.span.line > Token.lastLine before ↔ t'.span.line > Token.lastLine before' :=
          L.later twin.span cursors.line
        unfold Recovery.toLine
        rw [twin.kind]
        simp only [behind]
        generalize t'.kind = k
        cases k with
        | eof => exact cursors
        | rBrace =>
            dsimp only
            split
            · exact cursors
            · exact ih _ next
        | lBrace => exact ih _ next
        | _ =>
            dsimp only
            split
            · exact cursors
            · exact ih _ next

/-- The places after the rest of a construct. -/
theorem toConstruct (keywords : List String) (depth : Nat)
    (cursors : L.Cursors ⟨before, ahead⟩ ⟨before', ahead'⟩) :
    L.Cursors (Recovery.toConstruct keywords depth before ahead)
      (Recovery.toConstruct keywords depth before' ahead') := by
  induction ahead generalizing depth before before' ahead' with
  | nil => exact absurd rfl cursors.nonempty
  | cons t rest ih =>
      rcases cursors.split with ⟨_, _, one, rfl⟩ | ⟨t, u, rest, t', u', rest', two, rfl, twin, next⟩
      · cases one
        exact cursors
      · cases two
        have starts : Recovery.startsConstruct keywords t =
            Recovery.startsConstruct keywords t' := by
          unfold Recovery.startsConstruct
          rw [twin.kind, twin.text]
        unfold Recovery.toConstruct
        rw [twin.kind, starts]
        generalize t'.kind = k
        cases k with
        | eof => exact cursors
        | rBrace =>
            dsimp only
            split
            · exact next
            · exact ih _ next
        | lBrace => exact ih _ next
        | _ =>
            dsimp only
            split
            · exact cursors
            · exact ih _ next

end Recoveries

/-- The places at which reading goes on after a fault. -/
theorem resume {first first' broken broken' : Cursor} (how : Recovery)
    (start : L.Cursors first first') (cursors : L.Cursors broken broken') :
    L.Cursors (how.resume first broken) (how.resume first' broken') := by
  have restart : L.Cursors (Recovery.restart first broken) (Recovery.restart first' broken') := by
    unfold Recovery.restart
    rw [start.remaining_eq, cursors.remaining_eq]
    split
    · exact cursors.advance
    · exact cursors
  rw [Recovery.resume_eq, Recovery.resume_eq]
  cases how with
  | line => exact toLine 0 restart
  | construct keywords => exact toConstruct keywords 0 restart

/-! ## Nodes -/

theorem Nodes.nil : L.Nodes [] [] := rfl

theorem Nodes.append {ns ns' more more' : List Node} (front : L.Nodes ns ns')
    (back : L.Nodes more more') : L.Nodes (ns ++ more) (ns' ++ more') := by
  unfold Nodes at front back ⊢
  rw [List.map_append, List.map_append, front, back]

theorem Nodes.getLast? {ns ns' : List Node} (nodes : L.Nodes ns ns') :
    L.Nodes ns.getLast?.toList ns'.getLast?.toList := by
  have last := congrArg List.getLast? nodes
  rw [List.getLast?_map, List.getLast?_map] at last
  unfold Nodes
  rw [← Option.toList_map, ← Option.toList_map, last]

theorem Nodes.eq_nil_iff {ns ns' : List Node} (nodes : L.Nodes ns ns') : ns = [] ↔ ns' = [] := by
  have lengths := congrArg List.length nodes
  rw [List.length_map, List.length_map] at lengths
  rw [← List.length_eq_zero_iff, ← List.length_eq_zero_iff, lengths]

/-- In rows of tokens in order the first and the last token have the span between them as hull. -/
theorem cover_eq {ts : List Token} {head tail : Token} (ordered : ts.Pairwise Token.Before)
    (first : ts.head? = some head) (last : ts.getLast? = some tail) :
    head.span.cover tail.span =
      ⟨head.span.start, tail.span.stop, head.span.line, head.span.column, tail.span.endLine,
        tail.span.endColumn⟩ := by
  have before : head.Before tail := by
    obtain ⟨rest, rfl⟩ := List.head?_eq_some_iff.mp first
    cases rest with
    | nil =>
        cases last
        exact ⟨Nat.le_refl _, Nat.le_refl _⟩
    | cons next rest =>
        rw [List.getLast?_cons_cons] at last
        exact (List.pairwise_cons.mp ordered).1 tail (List.mem_of_getLast? last)
  exact Span.cover_of_le before.1 before.2

/-- The nodes for the tokens between places that correspond. -/
theorem ofTokens {first first' last last' : Cursor} {parts parts' : List Node} (k : Node.Kind)
    (start : L.Cursors first first') (stop : L.Cursors last last') (nodes : L.Nodes parts parts') :
    (Node.ofTokens k first last parts).mapSpans L.first =
      (Node.ofTokens k first' last' parts').mapSpans L.second := by
  have twins : List.Forall₂ L.Tokens (first.taken last) (first'.taken last') := by
    unfold Cursor.taken
    rw [start.remaining_eq, stop.remaining_eq]
    exact List.forall₂_take _ start.rows.forall₂
  have ordered : (first.taken last).Pairwise Token.Before :=
    start.ordered.sublist (List.take_sublist _ _)
  have ordered' : (first'.taken last').Pairwise Token.Before :=
    start.ordered'.sublist (List.take_sublist _ _)
  have nodes : parts.map (Node.mapSpans L.first) = parts'.map (Node.mapSpans L.second) := nodes
  unfold Node.ofTokens
  dsimp only
  rw [Node.mapSpans_eq, Node.mapSpans_eq, shown_eq twins k, nodes]
  congr 1
  -- both spans are points, or both are hulls of the first and the last token taken
  have tails := getLast?_tokens twins
  generalize first.taken last = ts at twins ordered tails
  generalize first'.taken last' = ts' at twins ordered' tails
  cases twins with
  | nil => exact L.kept (L.point stop.current.span)
  | @cons head head' rest rest' twin twins =>
      generalize found : (head :: rest).getLast? = tail at tails ⊢
      generalize found' : (head' :: rest').getLast? = tail' at tails ⊢
      cases tails with
      | none => exact absurd (List.getLast?_eq_none_iff.mp found) (List.cons_ne_nil _ _)
      | some twinTail =>
          rw [List.head?_cons, List.head?_cons]
          dsimp only
          rw [cover_eq ordered rfl found, cover_eq ordered' rfl found']
          exact L.kept (L.hull twin.span twinTail.span)

theorem Nodes.wrap {first first' last last' : Cursor} {parts parts' : List Node}
    (k : Option Node.Kind) (start : L.Cursors first first') (stop : L.Cursors last last')
    (nodes : L.Nodes parts parts') :
    L.Nodes (Node.wrap k first last parts) (Node.wrap k first' last' parts') := by
  cases k with
  | none => exact nodes
  | some k =>
      show [_] = [_]
      rw [ofTokens k start stop nodes]

/-! ## Readings -/

namespace Readings

variable {r r' : Reading}

theorem fault (readings : L.Readings r r') (expected : Expectation) :
    L.Faults (r.fault expected) (r'.fault expected) :=
  ⟨rfl, readings.cursor.current⟩

theorem record (readings : L.Readings r r') (limit : Nat) {fault fault' : Fault}
    (faults : L.Faults fault fault') :
    L.Readings (r.record limit fault) (r'.record limit fault') := by
  unfold Reading.record
  rw [readings.faults.length_eq]
  split
  · exact ⟨readings.cursor, List.rel_append readings.faults (.cons faults .nil)⟩
  · exact readings

theorem resumed (readings : L.Readings r r') (limit : Nat) (how : Recovery)
    {first first' : Cursor} (start : L.Cursors first first') {fault fault' : Fault}
    (faults : L.Faults fault fault') :
    L.Cursors (r.resumed limit how first fault) (r'.resumed limit how first' fault') := by
  unfold Reading.resumed
  rw [(readings.record limit faults).faults.length_eq]
  split
  · exact resume how start readings.cursor
  · exact toEnd readings.cursor

theorem recover (readings : L.Readings r r') (limit : Nat) (how : Recovery)
    {first first' : Cursor} (start : L.Cursors first first') {fault fault' : Fault}
    (faults : L.Faults fault fault') :
    L.Outcomes (r.recover limit how first fault) (r'.recover limit how first' fault') := by
  have stop := readings.resumed limit how start faults
  rw [Reading.recover_eq, Reading.recover_eq]
  exact .nodes (Nodes.wrap (some .error) start stop .nil)
    ⟨stop, (readings.record limit faults).faults⟩

end Readings

theorem Outcomes.after {ns ns' : List Node} {o o' : Outcome} (nodes : L.Nodes ns ns')
    (outcomes : L.Outcomes o o') : L.Outcomes (o.after ns) (o'.after ns') := by
  cases outcomes with
  | nodes more readings => exact .nodes (nodes.append more) readings
  | broken faults readings => exact .broken faults readings

end Layout

/-- **Two rows of tokens that correspond are read in the same way.** -/
theorem Reads.alike {L : Layout} {limit line line' : Nat} {g : Grammar} {r r' : Reading}
    {o : Outcome} (reads : Reads limit g line r o) (readings : L.Readings r r')
    (lines : L.line line line') :
    ∃ o', Reads limit g line' r' o' ∧ L.Outcomes o o' := by
  induction reads generalizing r' line' with
  | done => exact ⟨_, .done, .nodes .nil readings⟩
  | take => exact ⟨_, .take, .nodes .nil ⟨readings.cursor.advance, readings.faults⟩⟩
  | fail => exact ⟨_, .fail, .broken (readings.fault _) readings⟩
  | seq _ _ ihOne ihTwo =>
      obtain ⟨_, one, ⟨nodes, next⟩ | _⟩ := ihOne readings lines
      obtain ⟨_, two, outcomes⟩ := ihTwo next lines
      exact ⟨_, .seq one two, outcomes.after nodes⟩
  | seqBroken _ ih =>
      obtain ⟨_, one, _ | ⟨faults, next⟩⟩ := ih readings lines
      exact ⟨_, .seqBroken one, .broken faults next⟩
  | yes holds _ ih =>
      obtain ⟨_, one, outcomes⟩ := ih readings lines
      exact ⟨_, .yes ((Layout.holds_eq readings.cursor lines _).symm.trans holds) one, outcomes⟩
  | no fails _ ih =>
      obtain ⟨_, one, outcomes⟩ := ih readings lines
      exact ⟨_, .no ((Layout.holds_eq readings.cursor lines _).symm.trans fails) one, outcomes⟩
  | stop fails =>
      exact ⟨_, .stop ((Layout.holds_eq readings.cursor lines _).symm.trans fails),
        .nodes .nil readings⟩
  | more holds _ _ ihItem ihRest =>
      obtain ⟨_, one, ⟨nodes, next⟩ | _⟩ := ihItem readings lines
      obtain ⟨_, rest, outcomes⟩ := ihRest next lines
      exact ⟨_, .more ((Layout.holds_eq readings.cursor lines _).symm.trans holds) one rest,
        outcomes.after nodes⟩
  | moreBroken holds _ ih =>
      obtain ⟨_, one, _ | ⟨faults, next⟩⟩ := ih readings lines
      exact ⟨_, .moreBroken ((Layout.holds_eq readings.cursor lines _).symm.trans holds) one,
        .broken faults next⟩
  | node _ _ ihLead ihBody =>
      obtain ⟨_, lead, ⟨nodes, next⟩ | _⟩ := ihLead readings lines
      obtain ⟨_, body, ⟨more, last⟩ | _⟩ := ihBody next lines
      refine ⟨_, .node lead body, .nodes ?_ last⟩
      rw [← Layout.pick_eq next.cursor lines]
      exact (nodes.append more).wrap _ readings.cursor last.cursor
  | leadBroken _ ih =>
      obtain ⟨_, lead, _ | ⟨faults, next⟩⟩ := ih readings lines
      exact ⟨_, .leadBroken lead, .broken faults next⟩
  | bodyBroken _ _ ihLead ihBody =>
      obtain ⟨_, lead, ⟨_, next⟩ | _⟩ := ihLead readings lines
      obtain ⟨_, body, _ | ⟨faults, last⟩⟩ := ihBody next lines
      exact ⟨_, .bodyBroken lead body, .broken faults last⟩
  | last _ ih =>
      obtain ⟨_, one, ⟨nodes, next⟩ | _⟩ := ih readings lines
      exact ⟨_, .last one, .nodes nodes.getLast? next⟩
  | lastBroken _ ih =>
      obtain ⟨_, one, _ | ⟨faults, next⟩⟩ := ih readings lines
      exact ⟨_, .lastBroken one, .broken faults next⟩
  | atLeastOne _ some ih =>
      obtain ⟨_, one, ⟨nodes, next⟩ | _⟩ := ih readings lines
      exact ⟨_, .atLeastOne one (some ∘ nodes.eq_nil_iff.mpr), .nodes nodes next⟩
  | noneFound _ ih =>
      obtain ⟨_, one, ⟨nodes, next⟩ | _⟩ := ih readings lines
      cases nodes.eq_nil_iff.mp rfl
      exact ⟨_, .noneFound one, .broken (next.fault _) next⟩
  | atLeastOneBroken _ ih =>
      obtain ⟨_, one, _ | ⟨faults, next⟩⟩ := ih readings lines
      exact ⟨_, .atLeastOneBroken one, .broken faults next⟩
  | markLine _ ih =>
      obtain ⟨_, one, outcomes⟩ := ih readings readings.cursor.line
      exact ⟨_, .markLine one, outcomes⟩
  | intact _ ih =>
      obtain ⟨_, one, ⟨nodes, next⟩ | _⟩ := ih readings lines
      exact ⟨_, .intact one, .nodes nodes next⟩
  | recovered _ ih =>
      obtain ⟨_, one, _ | ⟨faults, next⟩⟩ := ih readings lines
      exact ⟨_, .recovered one, next.recover limit _ readings.cursor faults⟩
  | call _ ih =>
      obtain ⟨_, one, outcomes⟩ := ih readings L.zero
      exact ⟨_, .call one, outcomes⟩

end EntityFlow
