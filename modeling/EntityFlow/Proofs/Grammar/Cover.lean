import EntityFlow.Proofs.Grammar.Placement
import EntityFlow.Proofs.Grammar.Progress
import EntityFlow.Proofs.Tree.Subtrees

/-!
# Nodes inside their nodes

Every node of a tree shows the tokens in its span, and its parts lie in it, in order and apart
(`Node.Faithful`). That is so for whatever a grammar yields (`Reads.cover`), if one thing holds that
`Grammar.fits` checks: the empty node of an empty argument stands in front of the token that
follows it, so the node around it has to go on with that token.

* **placed**: nodes that were read in a row stand in a row (`Node.Placed`);
* **snug**: where a token is taken after the last node, the nodes stop with the last token taken
  (`Snug`), which puts them inside the node around them (`Covered.node`).
-/
namespace EntityFlow

namespace Node

/-- Nodes in order and apart between two places of a source. -/
def Placed (lower upper : Nat) : List Node → Prop
  | [] => lower ≤ upper
  | n :: rest => lower ≤ n.span.start ∧ n.span.start ≤ n.span.stop ∧ Placed n.span.stop upper rest

/-- A node that shows the tokens in its span and has its parts in it, in order and apart. -/
structure Faithful (tokens : List Token) (n : Node) : Prop where
  text : n.text = shown n.kind (Token.within n.span tokens)
  forward : n.span.start ≤ n.span.stop
  inside : ∀ part ∈ n.children, n.span.contains part.span = true
  apart : n.children.Pairwise fun a b => a.span.stop ≤ b.span.start

namespace Placed

variable {lower middle upper : Nat} {ms ns : List Node}

theorem le (placed : Placed lower upper ns) : lower ≤ upper := by
  induction ns generalizing lower with
  | nil => exact placed
  | cons n rest ih =>
      obtain ⟨starts, forward, tail⟩ := placed
      have := ih tail
      omega

theorem append (front : Placed lower middle ms) (back : Placed middle upper ns) :
    Placed lower upper (ms ++ ns) := by
  induction ms generalizing lower with
  | nil =>
      cases ns with
      | nil => exact Nat.le_trans front back
      | cons n rest =>
          obtain ⟨starts, forward, tail⟩ := back
          exact ⟨Nat.le_trans front starts, forward, tail⟩
  | cons m rest ih =>
      obtain ⟨starts, forward, tail⟩ := front
      exact ⟨starts, forward, ih tail⟩

/-- Nodes up to a place are nodes up to every later place. -/
theorem extend (placed : Placed lower middle ns) (le : middle ≤ upper) : Placed lower upper ns := by
  have placedNil : Placed middle upper [] := le
  have := placed.append placedNil
  rwa [List.append_nil] at this

theorem mem (placed : Placed lower upper ns) {n : Node} (member : n ∈ ns) :
    lower ≤ n.span.start ∧ n.span.stop ≤ upper := by
  induction ns generalizing lower with
  | nil => cases member
  | cons m rest ih =>
      obtain ⟨starts, forward, tail⟩ := placed
      have atMost := tail.le
      rcases List.mem_cons.mp member with rfl | member
      · exact ⟨starts, atMost⟩
      · have := ih tail member
        omega

theorem pairwise (placed : Placed lower upper ns) :
    ns.Pairwise fun a b => a.span.stop ≤ b.span.start := by
  induction ns generalizing lower with
  | nil => exact List.Pairwise.nil
  | cons n rest ih =>
      obtain ⟨_, _, tail⟩ := placed
      refine List.pairwise_cons.mpr ⟨?_, ih tail⟩
      intro m member
      exact (tail.mem member).1

theorem last (placed : Placed lower upper ns) : Placed lower upper ns.getLast?.toList := by
  cases found : ns.getLast? with
  | none => exact placed.le
  | some n =>
      obtain ⟨init, equal⟩ := List.getLast?_eq_some_iff.mp found
      have member : n ∈ ns := List.mem_of_getLast? found
      have bounds := placed.mem member
      have forward : n.span.start ≤ n.span.stop := by
        rw [equal] at placed
        clear found equal member bounds
        induction init generalizing lower with
        | nil => exact placed.2.1
        | cons m rest ih => exact ih placed.2.2
      exact ⟨bounds.1, forward, bounds.2⟩

end Placed

end Node

/-! ## Nodes between two places -/

/-- Nodes that were read from one place to another. -/
structure Covered (tokens : List Token) (first : Cursor) (ns : List Node) (last : Cursor) :
    Prop where
  faithful : ∀ n ∈ Node.subtreesOf ns, n.Faithful tokens
  placed : Node.Placed first.startsAt last.startsAt ns

/-- Nodes of which the last one stops where the last token taken stops, or none. -/
def Snug (first : Cursor) (ns : List Node) (last : Cursor) : Prop :=
  ns = [] ∨ (last.remaining < first.remaining ∧ Node.Placed first.startsAt last.stopsAt ns)

section Between

variable {tokens segment more : List Token} {first middle last : Cursor} {ms ns parts : List Node}
  {k : Node.Kind}

theorem Covered.nil (moves : first.Moves segment last) (on : first.On tokens)
    (ordered : Token.InOrder 0 tokens) : Covered tokens first [] last :=
  ⟨by simp, moves.startsAt_le on ordered⟩

theorem Covered.append (front : Covered tokens first ms middle)
    (back : Covered tokens middle ns last) : Covered tokens first (ms ++ ns) last := by
  exact ⟨Node.forall_mem_subtreesOf_append.mpr ⟨front.faithful, back.faithful⟩,
    front.placed.append back.placed⟩

/-- Nodes in a row are snug if the later ones are, and either the earlier ones are, too, or a token
was taken after them. -/
theorem Snug.append (front : Covered tokens first ms middle) (toMiddle : first.Moves segment middle)
    (toLast : middle.Moves more last) (on : first.On tokens) (ordered : Token.InOrder 0 tokens)
    (snug : Snug first ms middle ∨ last.remaining < middle.remaining)
    (snugBack : Snug middle ns last) : Snug first (ms ++ ns) last := by
  have onMiddle := on.moves toMiddle
  have fewer := toMiddle.remaining_le
  have fewerLater := toLast.remaining_le
  rcases snugBack with rfl | ⟨taken, placed⟩
  · rw [List.append_nil]
    rcases snug with (rfl | ⟨taken, placed⟩) | taken
    · exact Or.inl rfl
    · refine Or.inr ⟨by omega, placed.extend ?_⟩
      exact toLast.stopsAt_le onMiddle ordered
    · have some := toLast.remaining_lt_iff.mp taken
      have later := toLast.startsAt_lt_stopsAt onMiddle ordered some
      exact Or.inr ⟨by omega, front.placed.extend (Nat.le_of_lt later)⟩
  · exact Or.inr ⟨by omega, front.placed.append placed⟩

theorem Snug.lastOnly (snug : Snug first ns middle) : Snug first ns.getLast?.toList middle := by
  rcases snug with rfl | ⟨taken, placed⟩
  · exact Or.inl rfl
  · exact Or.inr ⟨taken, placed.last⟩

/-- A node whose parts are snug is faithful itself. -/
theorem Covered.node (moves : first.Moves segment last) (on : first.On tokens)
    (ordered : Token.InOrder 0 tokens) (covered : Covered tokens first parts last)
    (snug : Snug first parts last) :
    Covered tokens first [Node.ofTokens k first last parts] last := by
  have text := @Node.ofTokens_text tokens segment first last k parts moves on ordered
  have starts := @Node.ofTokens_start tokens segment first last k parts moves on ordered
  have onLast := on.moves moves
  have before := onLast.stopsAt_le_startsAt ordered
  have stops : first.startsAt ≤ (Node.ofTokens k first last parts).span.stop ∧
      (Node.ofTokens k first last parts).span.stop ≤ last.startsAt ∧
      Node.Placed first.startsAt (Node.ofTokens k first last parts).span.stop parts := by
    cases segment with
    | nil =>
        -- the node is a point, and a part would have taken a token
        have same := moves.eq_of_nil
        have point : (Node.ofTokens k first last parts).span.stop = last.startsAt := by
          rw [Node.ofTokens_point moves]
          rfl
        rw [point, same]
        refine ⟨Nat.le_refl _, Nat.le_refl _, ?_⟩
        rcases snug with rfl | ⟨taken, _⟩
        · exact Nat.le_refl _
        · have := moves.remaining_lt_iff.mp taken
          exact absurd rfl this
    | cons t rest =>
        have some : t :: rest ≠ [] := List.cons_ne_nil _ _
        have later := moves.startsAt_lt_stopsAt on ordered some
        rw [(Node.ofTokens_cover moves on ordered some).2]
        refine ⟨Nat.le_of_lt later, before, ?_⟩
        rcases snug with rfl | ⟨_, placed⟩
        · exact Nat.le_of_lt later
        · exact placed
  obtain ⟨forward, atMost, placed⟩ := stops
  refine ⟨?_, ?_⟩
  · refine Node.forall_mem_subtreesOf_singleton.mpr ⟨?_, covered.faithful⟩
    refine ⟨text, by rw [starts]; exact forward, ?_, placed.pairwise⟩
    intro part partMember
    have bounds := placed.mem partMember
    rw [Span.contains_iff, starts]
    exact bounds
  · show Node.Placed _ _ [_]
    refine ⟨Nat.le_of_eq starts.symm, ?_, atMost⟩
    rw [starts]
    exact forward

/-- A node over at least one token is snug. -/
theorem Snug.node (moves : first.Moves segment last) (on : first.On tokens)
    (ordered : Token.InOrder 0 tokens) (taken : last.remaining < first.remaining) :
    Snug first [Node.ofTokens k first last parts] last := by
  have some := moves.remaining_lt_iff.mp taken
  have cover := @Node.ofTokens_cover tokens segment first last k parts moves on ordered some
  have later := moves.startsAt_lt_stopsAt on ordered some
  refine Or.inr ⟨taken, ?_⟩
  show Node.Placed _ _ [_]
  refine ⟨Nat.le_of_eq cover.1.symm, ?_, Nat.le_of_eq cover.2⟩
  rw [cover.1, cover.2]
  exact Nat.le_of_lt later

end Between

/-! ## Parts inside their nodes -/

namespace Grammar

/-- Whether the last node stops with the last token taken, if there is a node; `proper` tells that
the current token is a proper one. -/
def snug : Grammar → Bool → Bool
  | .done, _ => true
  | .take, _ => true
  | .fail _, _ => true
  | .seq first second, proper =>
      (first.snug proper || second.progresses (proper && first.idle)) &&
        second.snug (proper && first.idle)
  | .choose look yes no, proper =>
      yes.snug (proper || look.tellsProper true) && no.snug (proper || look.tellsProper false)
  | .many look item, _ => item.snug (look.tellsProper true)
  | .node lead _ _ body, proper =>
      (lead.progresses proper || body.progresses (proper && lead.idle)) &&
        ((lead.snug proper || body.progresses (proper && lead.idle)) &&
          body.snug (proper && lead.idle))
  | .last g, proper => g.snug proper
  | .atLeastOne _ g, proper => g.snug proper
  | .markLine g, proper => g.snug proper
  | .recovering _ g, proper => proper && g.snug proper
  | .call _, _ => true

/-- Whether the parts of every node stop with the last token of the node. -/
def fits : Grammar → Bool → Bool
  | .done, _ => true
  | .take, _ => true
  | .fail _, _ => true
  | .seq first second, proper => first.fits proper && second.fits (proper && first.idle)
  | .choose look yes no, proper =>
      yes.fits (proper || look.tellsProper true) && no.fits (proper || look.tellsProper false)
  | .many look item, _ => item.fits (look.tellsProper true)
  | .node lead _ _ body, proper =>
      (lead.fits proper && body.fits (proper && lead.idle)) &&
        ((lead.snug proper || body.progresses (proper && lead.idle)) &&
          body.snug (proper && lead.idle))
  | .last g, proper => g.fits proper
  | .atLeastOne _ g, proper => g.fits proper
  | .markLine g, proper => g.fits proper
  | .recovering _ g, proper => g.fits proper
  | .call _, _ => true

end Grammar

theorem Rule.grammar_fits (rule : Rule) : rule.grammar.fits false = true := by
  cases rule with
  | value => decide
  | argument => decide
  | field => decide
  | ruleItem => decide

theorem Rule.grammar_snug (rule : Rule) : rule.grammar.snug false = true := by
  cases rule with
  | value => decide
  | argument => decide
  | field => decide
  | ruleItem => decide

theorem Language.grammar_fits (language : Language) : language.grammar.fits false = true := by
  cases language with
  | entity => decide
  | flow => decide

namespace Reads

variable {tokens : List Token} {limit line : Nat} {g : Grammar} {r next : Reading} {ns : List Node}

/-- What a grammar that fits yields is covered. -/
theorem cover {proper : Bool} (ordered : Token.InOrder 0 tokens)
    (reads : Reads limit g line r (.nodes ns next)) (on : r.cursor.On tokens)
    (fits : g.fits proper = true) (isProper : proper = true → r.cursor.Proper) :
    Covered tokens r.cursor ns next.cursor ∧
      (g.snug proper = true → Snug r.cursor ns next.cursor) := by
  induction reads using Reads.succeeds generalizing proper with
  | done => exact ⟨.nil (.refl _) on ordered, fun _ => Or.inl rfl⟩
  | @take line r =>
      obtain ⟨_, moves⟩ := r.cursor.advance_moves
      exact ⟨.nil moves on ordered, fun _ => Or.inl rfl⟩
  | seq one two ihOne ihTwo =>
      obtain ⟨_, toNext⟩ := one.moves
      obtain ⟨_, toLast⟩ := two.moves
      have onNext := on.moves toNext
      have properNext := one.proper_after isProper
      obtain ⟨fitsOne, fitsTwo⟩ := Bool.and_eq_true_iff.mp fits
      obtain ⟨front, snugFront⟩ := ihOne on fitsOne isProper
      obtain ⟨back, snugBack⟩ := ihTwo onNext fitsTwo properNext
      refine ⟨front.append back, ?_⟩
      intro snug
      obtain ⟨either, snugTwo⟩ := Bool.and_eq_true_iff.mp snug
      refine Snug.append front toNext toLast on ordered ?_ (snugBack snugTwo)
      rcases Bool.or_eq_true_iff.mp either with snugOne | progresses
      · exact Or.inl (snugFront snugOne)
      · exact Or.inr (two.progress (onNext.ended ordered) progresses properNext)
  | yes holds _ ih =>
      have known := proper_or (on.ended ordered) isProper holds
      obtain ⟨covered, snug⟩ := ih on (Bool.and_eq_true_iff.mp fits).1 known
      exact ⟨covered, fun both => snug (Bool.and_eq_true_iff.mp both).1⟩
  | no fails _ ih =>
      have known := proper_or (on.ended ordered) isProper fails
      obtain ⟨covered, snug⟩ := ih on (Bool.and_eq_true_iff.mp fits).2 known
      exact ⟨covered, fun both => snug (Bool.and_eq_true_iff.mp both).2⟩
  | stop => exact ⟨.nil (.refl _) on ordered, fun _ => Or.inl rfl⟩
  | @more look item line r ns next more last holds one rest ihOne ihRest =>
      obtain ⟨_, toNext⟩ := one.moves
      obtain ⟨_, toLast⟩ := rest.moves
      have known : look.tellsProper true = true → r.cursor.Proper :=
        fun tells => Look.proper_of_holds (on.ended ordered) tells holds
      have unknown : false = true → next.cursor.Proper := nofun
      have fitsRest : (Grammar.many look item).fits false = true := fits
      obtain ⟨front, snugFront⟩ := ihOne on fits known
      obtain ⟨back, snugBack⟩ := ihRest (on.moves toNext) fitsRest unknown
      refine ⟨front.append back, ?_⟩
      intro snug
      exact Snug.append front toNext toLast on ordered (Or.inl (snugFront snug)) (snugBack snug)
  | @node lead cases otherwise body line r ns next more last readsLead readsBody ihLead ihBody =>
      obtain ⟨_, toNext⟩ := readsLead.moves
      obtain ⟨_, toLast⟩ := readsBody.moves
      have onNext := on.moves toNext
      have properNext := readsLead.proper_after isProper
      obtain ⟨fitsBoth, snugBoth⟩ := Bool.and_eq_true_iff.mp fits
      obtain ⟨fitsLead, fitsBody⟩ := Bool.and_eq_true_iff.mp fitsBoth
      obtain ⟨front, snugFront⟩ := ihLead on fitsLead isProper
      obtain ⟨back, snugBack⟩ := ihBody onNext fitsBody properNext
      have covered := front.append back
      have snug : Snug r.cursor (ns ++ more) last.cursor := by
        obtain ⟨either, snugBody⟩ := Bool.and_eq_true_iff.mp snugBoth
        refine Snug.append front toNext toLast on ordered ?_ (snugBack snugBody)
        rcases Bool.or_eq_true_iff.mp either with snugLead | progresses
        · exact Or.inl (snugFront snugLead)
        · exact Or.inr (readsBody.progress (onNext.ended ordered) progresses properNext)
      have moves := toNext.trans toLast
      cases Grammar.pick line next.cursor otherwise cases with
      | none => exact ⟨covered, fun _ => snug⟩
      | some k =>
          refine ⟨covered.node moves on ordered snug, ?_⟩
          intro snugNode
          have progresses := (Bool.and_eq_true_iff.mp snugNode).1
          have reads : Reads limit (.node lead cases otherwise body) line r _ :=
            .node readsLead readsBody
          refine Snug.node moves on ordered ?_
          exact reads.progress (on.ended ordered) progresses isProper
  | @last g line r ns next _ ih =>
      obtain ⟨covered, snug⟩ := ih on fits isProper
      have fewer := Node.subtreesOf_subset (Node.getLast?_toList_subset ns)
      exact ⟨⟨fun n member => covered.faithful n (fewer member), covered.placed.last⟩,
        fun snugAll => (snug snugAll).lastOnly⟩
  | atLeastOne _ _ ih => exact ih on fits isProper
  | markLine _ ih => exact ih on fits isProper
  | intact _ ih =>
      obtain ⟨covered, snug⟩ := ih on fits isProper
      exact ⟨covered, fun both => snug (Bool.and_eq_true_iff.mp both).2⟩
  | @recovered how g line r fault next broken =>
      obtain ⟨_, toNext⟩ := broken.moves
      obtain ⟨_, toResumed⟩ := next.resumed_moves limit how r.cursor fault
      have moves := toNext.trans toResumed
      refine ⟨(Covered.nil moves on ordered).node moves on ordered (Or.inl rfl), ?_⟩
      intro both
      have properFirst := isProper (Bool.and_eq_true_iff.mp both).1
      refine Snug.node moves on ordered ?_
      exact Reading.resumed_remaining toNext (on.ended ordered) properFirst
  | @call rule line r ns next _ ih =>
      have unknown : false = true → r.cursor.Proper := nofun
      obtain ⟨covered, snug⟩ := ih on rule.grammar_fits unknown
      exact ⟨covered, fun _ => snug rule.grammar_snug⟩

end Reads

end EntityFlow
