import EntityFlow.Proofs.Grammar.Cover
import EntityFlow.Proofs.Grammar.Shapes

/-!
# Nodes that are not empty

A node without tokens is a point of the source. Only few constructs can be empty: a validation
argument, the channel of an event, an error in front of the end, and a whole source
(`Node.Kind.mayBeEmpty`). Every node of another kind was read by a grammar that takes a token, which
`Grammar.fills` checks, and so its span is not empty (`Parse.ofTokens_filled`).
-/

namespace EntityFlow

/-- The kinds of nodes that can be without tokens. -/
def Node.Kind.mayBeEmpty (k : Node.Kind) : Bool :=
  k == .error || k == .fieldValidationValue || k == .eventChannel || k == .zdl || k == .zfl

/-- That a node has a token if its kind says so. -/
def Node.Filled (n : Node) : Prop := n.kind.mayBeEmpty = false → n.span.start < n.span.stop

namespace Grammar

/-- Whether every node of a kind that is never empty takes a token; `proper` tells that the current
token is a proper one. -/
def fills : Grammar → Bool → Bool
  | .done, _ => true
  | .take, _ => true
  | .fail _, _ => true
  | .seq first second, proper => first.fills proper && second.fills (proper && first.idle)
  | .choose look yes no, proper =>
      yes.fills (proper || look.tellsProper true) && no.fills (proper || look.tellsProper false)
  | .many look item, _ => item.fills (look.tellsProper true)
  | .node lead cases otherwise body, proper =>
      (lead.fills proper && body.fills (proper && lead.idle)) &&
        ((otherwise.toList ++ cases.map (·.2)).all (·.mayBeEmpty) ||
          (lead.progresses proper || body.progresses (proper && lead.idle)))
  | .last g, proper => g.fills proper
  | .atLeastOne _ g, proper => g.fills proper
  | .markLine g, proper => g.fills proper
  | .recovering _ g, proper => g.fills proper
  | .call _, _ => true

end Grammar

theorem Rule.grammar_fills (rule : Rule) : rule.grammar.fills false = true := by
  cases rule with
  | value => decide
  | argument => decide
  | field => decide
  | ruleItem => decide

theorem Language.grammar_fills (language : Language) : language.grammar.fills false = true := by
  cases language with
  | entity => decide
  | flow => decide

namespace Reads

variable {tokens : List Token} {limit line : Nat} {g : Grammar} {r next : Reading} {ns : List Node}

/-- A node of a kind that is never empty takes a token, so it starts before it stops. -/
theorem filled_node {lead body : Grammar} {cases : List (Look × Node.Kind)}
    {otherwise : Option Node.Kind} {last : Reading} {more : List Node} {k : Node.Kind}
    {proper : Bool} (readsLead : Reads limit lead line r (.nodes ns next))
    (ordered : Token.InOrder 0 tokens) (on : r.cursor.On tokens)
    (readsBody : Reads limit body line next (.nodes more last))
    (taking : ((otherwise.toList ++ cases.map (·.2)).all (·.mayBeEmpty) ||
      (lead.progresses proper || body.progresses (proper && lead.idle))) = true)
    (isProper : proper = true → r.cursor.Proper)
    (picked : Grammar.pick line next.cursor otherwise cases = some k) :
    (Node.ofTokens k r.cursor last.cursor (ns ++ more)).Filled := by
  intro never
  have kept : k.mayBeEmpty = false := never
  obtain ⟨_, toNext⟩ := readsLead.moves
  obtain ⟨_, toLast⟩ := readsBody.moves
  have progresses : (Grammar.node lead cases otherwise body).progresses proper = true := by
    rcases Bool.or_eq_true_iff.mp taking with empty | progresses
    · have allowed := List.all_eq_true.mp empty k (Grammar.mem_kinds_of_pick picked)
      rw [kept] at allowed
      cases allowed
    · exact progresses
  have reads : Reads limit (.node lead cases otherwise body) line r _ := .node readsLead readsBody
  have moves := toNext.trans toLast
  have taken := moves.remaining_lt_iff.mp (reads.progress (on.ended ordered) progresses isProper)
  have cover :=
    @Node.ofTokens_cover tokens _ r.cursor last.cursor k (ns ++ more) moves on ordered taken
  rw [cover.1, cover.2]
  exact moves.startsAt_lt_stopsAt on ordered taken

/-- No node that is read is empty, unless its kind may be. -/
theorem filled {proper : Bool} (ordered : Token.InOrder 0 tokens)
    (reads : Reads limit g line r (.nodes ns next)) (on : r.cursor.On tokens)
    (fills : g.fills proper = true) (isProper : proper = true → r.cursor.Proper) :
    ∀ n ∈ Node.subtreesOf ns, n.Filled := by
  induction reads using Reads.succeeds generalizing proper with
  | done => simp
  | take => simp
  | seq one two ihOne ihTwo =>
      obtain ⟨_, toNext⟩ := one.moves
      obtain ⟨fillsOne, fillsTwo⟩ := Bool.and_eq_true_iff.mp fills
      exact Node.forall_mem_subtreesOf_append.mpr ⟨ihOne on fillsOne isProper,
        ihTwo (on.moves toNext) fillsTwo (one.proper_after isProper)⟩
  | yes holds _ ih =>
      have known := proper_or (on.ended ordered) isProper holds
      exact ih on (Bool.and_eq_true_iff.mp fills).1 known
  | no fails _ ih =>
      have known := proper_or (on.ended ordered) isProper fails
      exact ih on (Bool.and_eq_true_iff.mp fills).2 known
  | stop => simp
  | @more look item line r ns next more last holds one rest ihOne ihRest =>
      obtain ⟨_, toNext⟩ := one.moves
      have known : look.tellsProper true = true → r.cursor.Proper :=
        fun tells => Look.proper_of_holds (on.ended ordered) tells holds
      have unknown : false = true → next.cursor.Proper := by
        intro impossible
        cases impossible
      have fillsRest : (Grammar.many look item).fills false = true := fills
      exact Node.forall_mem_subtreesOf_append.mpr ⟨ihOne on fills known,
        ihRest (on.moves toNext) fillsRest unknown⟩
  | @node lead cases otherwise body line r ns next more last readsLead readsBody ihLead ihBody =>
      obtain ⟨_, toNext⟩ := readsLead.moves
      obtain ⟨fillsBoth, taking⟩ := Bool.and_eq_true_iff.mp fills
      obtain ⟨fillsLead, fillsBody⟩ := Bool.and_eq_true_iff.mp fillsBoth
      have below := Node.forall_mem_subtreesOf_append.mpr ⟨ihLead on fillsLead isProper,
        ihBody (on.moves toNext) fillsBody (readsLead.proper_after isProper)⟩
      cases picked : Grammar.pick line next.cursor otherwise cases with
      | none => exact below
      | some k =>
          exact Node.forall_mem_subtreesOf_singleton.mpr
            ⟨readsLead.filled_node ordered on readsBody taking isProper picked, below⟩
  | @last g line r ns next _ ih =>
      intro n member
      exact ih on fills isProper n (Node.subtreesOf_subset (Node.getLast?_toList_subset ns) member)
  | atLeastOne _ _ ih => exact ih on fills isProper
  | markLine _ ih => exact ih on fills isProper
  | intact _ ih => exact ih on fills isProper
  | recovered =>
      refine Node.forall_mem_subtreesOf_singleton.mpr ⟨?_, by simp⟩
      intro never
      cases never
  | @call rule line r ns next _ ih =>
      have unknown : false = true → r.cursor.Proper := by
        intro impossible
        cases impossible
      exact ih on rule.grammar_fills unknown

end Reads

/-- **No node of a source is empty**, unless its kind may be. -/
theorem Parse.ofTokens_filled (language : Language) (limit : Nat) {tokens : List Token}
    (ordered : Token.InOrder 0 tokens) :
    ∀ n ∈ (Parse.ofTokens language limit tokens).tree.subtrees, n.Filled := by
  obtain ⟨ns, last, reads, _, equal⟩ := Parse.ofTokens_reads language limit ordered.ended
  rw [equal]
  refine Node.forall_mem_subtrees.mpr ⟨?_, ?_⟩
  · intro never
    cases language <;> cases never
  · have unknown : false = true → (Cursor.start tokens).Proper := by
      intro impossible
      cases impossible
    exact reads.filled ordered (Cursor.on_start tokens) language.grammar_fills unknown

end EntityFlow
