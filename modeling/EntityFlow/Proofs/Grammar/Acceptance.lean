import EntityFlow.Proofs.Grammar.Layout
import EntityFlow.Proofs.Grammar.Progress

/-!
# Acceptance

`Accepts g line c ns d` says that what stands from `c` to `d` keeps to a grammar and yields the
nodes `ns`. It is a derivation without faults, and so without the list of them: a source without
faults is accepted (`Reads.accepts`), and what is accepted is read so under every limit and whatever
was recorded before (`Accepts.reads`).
-/

namespace EntityFlow

/-- `Accepts g line c ns d`: the tokens from `c` to `d`, with `line` marked, keep to `g` and yield
`ns`. -/
inductive Accepts : Grammar → Nat → Cursor → List Node → Cursor → Prop
  | done {line c} : Accepts .done line c [] c
  | take {line c} : Accepts .take line c [] c.advance
  | seq {first second line c ns d more e} : Accepts first line c ns d →
      Accepts second line d more e → Accepts (.seq first second) line c (ns ++ more) e
  | yes {look yes no line c ns d} : look.holds line c = true → Accepts yes line c ns d →
      Accepts (.choose look yes no) line c ns d
  | no {look yes no line c ns d} : look.holds line c = false → Accepts no line c ns d →
      Accepts (.choose look yes no) line c ns d
  | stop {look item line c} : look.holds line c = false → Accepts (.many look item) line c [] c
  | more {look item line c ns d more e} : look.holds line c = true → Accepts item line c ns d →
      Accepts (.many look item) line d more e → Accepts (.many look item) line c (ns ++ more) e
  | node {lead cases otherwise body line c ns d more e} : Accepts lead line c ns d →
      Accepts body line d more e →
      Accepts (.node lead cases otherwise body) line c
        (Node.wrap (Grammar.pick line d otherwise cases) c e (ns ++ more)) e
  | last {g line c ns d} : Accepts g line c ns d → Accepts (.last g) line c ns.getLast?.toList d
  | atLeastOne {expected g line c ns d} : Accepts g line c ns d → ns ≠ [] →
      Accepts (.atLeastOne expected g) line c ns d
  | markLine {g line c ns d} : Accepts g c.lineBefore c ns d → Accepts (.markLine g) line c ns d
  | intact {how g line c ns d} : Accepts g line c ns d → Accepts (.recovering how g) line c ns d
  | call {rule line c ns d} : Accepts rule.grammar 0 c ns d → Accepts (.call rule) line c ns d

/-- What is read without a fault is accepted. -/
theorem Reads.accepts {limit line : Nat} {g : Grammar} {r next : Reading} {ns : List Node}
    (reads : Reads limit g line r (.nodes ns next)) (wanted : 0 < limit)
    (faultless : next.faults = []) : Accepts g line r.cursor ns next.cursor := by
  -- what was recorded on the way would still be there
  have before {g : Grammar} {line : Nat} {r next : Reading} {ns : List Node}
      (reads : Reads limit g line r (.nodes ns next)) (faultless : next.faults = []) :
      r.faults = [] := by
    have kept : r.faults <+: next.faults := reads.faults_prefix
    rw [faultless] at kept
    exact List.prefix_nil.mp kept
  induction reads using Reads.succeeds with
  | done => exact .done
  | take => exact .take
  | seq _ two ihOne ihTwo => exact .seq (ihOne (before two faultless)) (ihTwo faultless)
  | yes holds _ ih => exact .yes holds (ih faultless)
  | no fails _ ih => exact .no fails (ih faultless)
  | stop fails => exact .stop fails
  | more holds _ rest ihOne ihRest =>
      exact .more holds (ihOne (before rest faultless)) (ihRest faultless)
  | node _ body ihLead ihBody => exact .node (ihLead (before body faultless)) (ihBody faultless)
  | last _ ih => exact .last (ih faultless)
  | atLeastOne _ some ih => exact .atLeastOne (ih faultless) some
  | markLine _ ih => exact .markLine (ih faultless)
  | intact _ ih => exact .intact (ih faultless)
  | recovered => exact absurd faultless (Reading.faults_record_ne_nil wanted _ _)
  | call _ ih => exact .call (ih faultless)

namespace Accepts

variable {g : Grammar} {line : Nat} {c d : Cursor} {ns : List Node}

/-- What is accepted is read so, under every limit and after all faults. -/
theorem reads (accepts : Accepts g line c ns d) (limit : Nat) (faults : List Fault) :
    Reads limit g line ⟨c, faults⟩ (.nodes ns ⟨d, faults⟩) := by
  induction accepts with
  | done => exact .done
  | take => exact .take
  | seq _ _ ihOne ihTwo => exact .seq ihOne ihTwo
  | yes holds _ ih => exact .yes holds ih
  | no fails _ ih => exact .no fails ih
  | stop fails => exact .stop fails
  | more holds _ _ ihItem ihRest => exact .more holds ihItem ihRest
  | node _ _ ihLead ihBody => exact .node ihLead ihBody
  | last _ ih => exact .last ih
  | atLeastOne _ some ih => exact .atLeastOne ih some
  | markLine _ ih => exact .markLine ih
  | intact _ ih => exact .intact ih
  | call _ ih => exact .call ih

theorem moves (accepts : Accepts g line c ns d) : ∃ segment, c.Moves segment d :=
  (accepts.reads 1 []).moves

theorem remaining_le (accepts : Accepts g line c ns d) : d.remaining ≤ c.remaining := by
  obtain ⟨_, moves⟩ := accepts.moves
  exact moves.remaining_le

theorem ended (accepts : Accepts g line c ns d) (ended : Token.Ended c.ahead) :
    Token.Ended d.ahead := by
  obtain ⟨_, moves⟩ := accepts.moves
  exact (moves.ended ended).2

/-- Where the end token is not reached, it was not reached before. -/
theorem proper (accepts : Accepts g line c ns d) (ended : Token.Ended c.ahead)
    (proper : d.Proper) : c.Proper := by
  intro atEnd
  obtain ⟨_, moves⟩ := accepts.moves
  rw [moves.eq_of_eof ended atEnd] at proper
  exact proper atEnd

/-- What corresponds to something accepted is accepted. -/
theorem alike {L : Layout} {c' : Cursor} {line' : Nat} (accepts : Accepts g line c ns d)
    (cursors : L.Cursors c c') (lines : L.line line line') :
    ∃ ns' d', Accepts g line' c' ns' d' ∧ L.Nodes ns ns' ∧ L.Cursors d d' := by
  have start : L.Readings ⟨c, []⟩ ⟨c', []⟩ := ⟨cursors, .nil⟩
  obtain ⟨o', other, outcomes⟩ := (accepts.reads 1 []).alike start lines
  cases outcomes with
  | nodes nodes readings =>
      have faultless := List.forall₂_nil_left_iff.mp readings.faults
      exact ⟨_, _, other.accepts Nat.one_pos faultless, nodes, readings.cursor⟩

end Accepts

end EntityFlow
