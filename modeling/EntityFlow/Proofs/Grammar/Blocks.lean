import EntityFlow.Proofs.Grammar.Foresight

/-!
# Places in blocks

`Passes b owner g line c ns d` says that what keeps to a grammar comes through a place in a block,
in front of one of its items or of the brace that closes it, and which of the nodes has this block
as its own. It is `Accepts` with that one place marked.

How far the place is from both ends of what was accepted is known from the grammar:
`Grammar.approach` counts the tokens in front of it at least (`Passes.approach_le`), and
`Grammar.closes` finds the grammars that take a token after it (`Passes.closes_lt`).
-/

namespace EntityFlow

namespace Grammar

/-- What stands between the braces of a block. -/
def items (item : Grammar) : Grammar :=
  .many (.and (.not (.kind 0 .rBrace)) (.not (.kind 0 .eof))) (.recovering .line item)

theorem block_eq (item : Grammar) :
    block item = .seq (symbol .lBrace) (.seq (items item) (symbol .rBrace)) := rfl

end Grammar

/-- What is accepted from `c` to `d` passes `b`, a place in a block: in front of one of its items or
of its closing brace. The block is that of `owner`, or no node is around it yet. -/
inductive Passes (b : Cursor) : Option Node → Grammar → Nat → Cursor → List Node → Cursor → Prop
  | here {item line ns d} : Accepts (.items item) line b ns d →
      Passes b none (.items item) line b ns d
  | first {o first second line c ns d more e} : Passes b o first line c ns d →
      Accepts second line d more e → Passes b o (.seq first second) line c (ns ++ more) e
  | second {o first second line c ns d more e} : Accepts first line c ns d →
      Passes b o second line d more e → Passes b o (.seq first second) line c (ns ++ more) e
  | yes {o look yes no line c ns d} : look.holds line c = true → Passes b o yes line c ns d →
      Passes b o (.choose look yes no) line c ns d
  | no {o look yes no line c ns d} : look.holds line c = false → Passes b o no line c ns d →
      Passes b o (.choose look yes no) line c ns d
  | item {o look item line c ns d more e} : look.holds line c = true →
      Passes b o item line c ns d → Accepts (.many look item) line d more e →
      Passes b o (.many look item) line c (ns ++ more) e
  | later {o look item line c ns d more e} : look.holds line c = true →
      Accepts item line c ns d → Passes b o (.many look item) line d more e →
      Passes b o (.many look item) line c (ns ++ more) e
  | lead {o lead cases otherwise body line c ns d more e} : Passes b o lead line c ns d →
      Accepts body line d more e →
      Passes b
        (o <|> (Grammar.pick line d otherwise cases).map (Node.ofTokens · c e (ns ++ more)))
        (.node lead cases otherwise body) line c
        (Node.wrap (Grammar.pick line d otherwise cases) c e (ns ++ more)) e
  | body {o lead cases otherwise body line c ns d more e} : Accepts lead line c ns d →
      Passes b o body line d more e →
      Passes b
        (o <|> (Grammar.pick line d otherwise cases).map (Node.ofTokens · c e (ns ++ more)))
        (.node lead cases otherwise body) line c
        (Node.wrap (Grammar.pick line d otherwise cases) c e (ns ++ more)) e
  | last {o g line c ns d} : Passes b o g line c ns d →
      Passes b o (.last g) line c ns.getLast?.toList d
  | atLeastOne {o expected g line c ns d} : Passes b o g line c ns d → ns ≠ [] →
      Passes b o (.atLeastOne expected g) line c ns d
  | markLine {o g line c ns d} : Passes b o g c.lineBefore c ns d →
      Passes b o (.markLine g) line c ns d
  | intact {o how g line c ns d} : Passes b o g line c ns d →
      Passes b o (.recovering how g) line c ns d
  | call {o rule line c ns d} : Passes b o rule.grammar 0 c ns d →
      Passes b o (.call rule) line c ns d

/-! ## Grammars without blocks -/

/-- The constructs that contain themselves and have no block. -/
def Rule.blockless : Rule → Bool
  | .value => true
  | .argument => true
  | .field => false
  | .ruleItem => false

/-- Whether there is no block in a grammar. -/
def Grammar.blockless : Grammar → Bool
  | .done => true
  | .take => true
  | .fail _ => true
  | .seq first second => first.blockless && second.blockless
  | .choose _ yes no => yes.blockless && no.blockless
  | .many _ item => item.blockless
  | .node lead _ _ body => lead.blockless && body.blockless
  | .last g => g.blockless
  | .atLeastOne _ g => g.blockless
  | .markLine g => g.blockless
  | .recovering _ _ => false
  | .call rule => rule.blockless

theorem Rule.grammar_blockless (rule : Rule) (blockless : rule.blockless = true) :
    rule.grammar.blockless = true := by
  cases rule with
  | value => decide
  | argument => decide
  | field => cases blockless
  | ruleItem => cases blockless

/-! ## How far a block is from both ends -/

/-- How many tokens a construct that contains itself takes at least before it comes to a place in a
block. -/
def Rule.approach : Rule → Nat
  | .value => Look.horizon
  | .argument => Look.horizon
  | .field => 1
  | .ruleItem => 1

namespace Grammar

/-- Whether a broken construct is given up with its line. -/
def endsWithLine : Grammar → Bool
  | .recovering .line _ => true
  | _ => false

/-- How many tokens a grammar takes at least before it comes to a place in a block, if the current
token is of the known kind. Where there is no block this is more than any look sees. -/
def approach : Grammar → Option Token.Kind → Nat
  | .done, _ => Look.horizon
  | .take, _ => Look.horizon
  | .fail _, _ => Look.horizon
  | .seq first second, known =>
      min (first.approach known) (first.onwards known (first.least known) second.approach)
  | .choose look yes no, known =>
      match look.decides known with
      | some true => yes.approach known
      | some false => no.approach known
      | none => min (yes.approach (known <|> look.tells 0)) (no.approach known)
  | .many _ item, known =>
      if item.endsWithLine then 0
      else min (item.approach known) (item.least known + item.approach none)
  | .node lead _ _ body, known =>
      min (lead.approach known) (lead.onwards known (lead.least known) body.approach)
  | .last g, known => g.approach known
  | .atLeastOne _ g, known => g.approach known
  | .markLine g, known => g.approach known
  | .recovering _ g, known => g.approach known
  | .call rule, _ => rule.approach

/-- Whether a token is taken after every place in a block. -/
def closes : Grammar → Bool
  | .done => true
  | .take => true
  | .fail _ => true
  | .seq first second => (first.closes || second.progresses false) && second.closes
  | .choose _ yes no => yes.closes && no.closes
  | .many _ item => !item.endsWithLine && item.closes
  | .node lead _ _ body => (lead.closes || body.progresses false) && body.closes
  | .last g => g.closes
  | .atLeastOne _ g => g.closes
  | .markLine g => g.closes
  | .recovering _ g => g.closes
  | .call _ => true

end Grammar

theorem Rule.approach_grammar (rule : Rule) : rule.approach ≤ rule.grammar.approach none := by
  cases rule with
  | value => decide
  | argument => decide
  | field => decide
  | ruleItem => decide

theorem Rule.grammar_closes (rule : Rule) : rule.grammar.closes = true := by
  cases rule with
  | value => decide
  | argument => decide
  | field => decide
  | ruleItem => decide

namespace Passes

variable {b c d : Cursor} {o : Option Node} {g : Grammar} {line : Nat} {ns : List Node}
  {known : Option Token.Kind}

/-- What passes a place is accepted. -/
theorem accepts (passes : Passes b o g line c ns d) : Accepts g line c ns d := by
  induction passes with
  | here rest => exact rest
  | first _ two ih => exact .seq ih two
  | second one _ ih => exact .seq one ih
  | yes holds _ ih => exact .yes holds ih
  | no fails _ ih => exact .no fails ih
  | item holds _ rest ih => exact .more holds ih rest
  | later holds one _ ih => exact .more holds one ih
  | lead _ body ih => exact .node ih body
  | body lead _ ih => exact .node lead ih
  | last _ ih => exact .last ih
  | atLeastOne _ some ih => exact .atLeastOne ih some
  | markLine _ ih => exact .markLine ih
  | intact _ ih => exact .intact ih
  | call _ ih => exact .call ih

theorem not_blockless (passes : Passes b o g line c ns d) : g.blockless = false := by
  refine Bool.eq_false_iff.mpr ?_
  intro blockless
  induction passes with
  | here => cases blockless
  | first _ _ ih => exact ih (Bool.and_eq_true_iff.mp blockless).1
  | second _ _ ih => exact ih (Bool.and_eq_true_iff.mp blockless).2
  | yes _ _ ih => exact ih (Bool.and_eq_true_iff.mp blockless).1
  | no _ _ ih => exact ih (Bool.and_eq_true_iff.mp blockless).2
  | item _ _ _ ih => exact ih blockless
  | later _ _ _ ih => exact ih blockless
  | lead _ _ ih => exact ih (Bool.and_eq_true_iff.mp blockless).1
  | body _ _ ih => exact ih (Bool.and_eq_true_iff.mp blockless).2
  | last _ ih => exact ih blockless
  | atLeastOne _ _ ih => exact ih blockless
  | markLine _ ih => exact ih blockless
  | intact => cases blockless
  | call _ ih => exact ih (Rule.grammar_blockless _ blockless)

/-- The place is ahead. -/
theorem remaining_le (passes : Passes b o g line c ns d) : b.remaining ≤ c.remaining := by
  induction passes with
  | here => exact Nat.le_refl _
  | second one _ ih => exact Nat.le_trans ih one.remaining_le
  | later _ one _ ih => exact Nat.le_trans ih one.remaining_le
  | body lead _ ih => exact Nat.le_trans ih lead.remaining_le
  | first _ _ ih => exact ih
  | yes _ _ ih => exact ih
  | no _ _ ih => exact ih
  | item _ _ _ ih => exact ih
  | lead _ _ ih => exact ih
  | last _ ih => exact ih
  | atLeastOne _ _ ih => exact ih
  | markLine _ ih => exact ih
  | intact _ ih => exact ih
  | call _ ih => exact ih

/-- The place is not behind what was accepted. -/
theorem le_remaining (passes : Passes b o g line c ns d) : d.remaining ≤ b.remaining := by
  induction passes with
  | here rest => exact rest.remaining_le
  | first _ two ih => exact Nat.le_trans two.remaining_le ih
  | item _ _ rest ih => exact Nat.le_trans rest.remaining_le ih
  | lead _ body ih => exact Nat.le_trans body.remaining_le ih
  | second _ _ ih => exact ih
  | yes _ _ ih => exact ih
  | no _ _ ih => exact ih
  | later _ _ _ ih => exact ih
  | body _ _ ih => exact ih
  | last _ ih => exact ih
  | atLeastOne _ _ ih => exact ih
  | markLine _ ih => exact ih
  | intact _ ih => exact ih
  | call _ ih => exact ih

/-- In front of a place behind which there is more than the end token this is so, too. -/
theorem proper (passes : Passes b o g line c ns d) (ended : Token.Ended c.ahead)
    (more : 2 ≤ b.remaining) : c.Proper := by
  intro atEnd
  have atMost := passes.remaining_le
  unfold Cursor.remaining at more atMost
  rw [Cursor.ahead_eq_of_eof ended atEnd, List.length_singleton] at atMost
  omega

/-- A grammar takes as many tokens in front of a place in a block as it says. -/
theorem approach_le (passes : Passes b o g line c ns d) (ended : Token.Ended c.ahead)
    (more : 2 ≤ b.remaining) (shows : c.Shows known) :
    b.remaining + g.approach known ≤ c.remaining := by
  induction passes generalizing known with
  | here => exact Nat.le_refl _
  | first _ _ ih =>
      have := ih ended shows
      unfold Grammar.approach
      omega
  | second one two ih =>
      have endedNext := one.ended ended
      have front := one.least_le ended (two.proper endedNext more) shows
      have onwards := one.onwards_le shows front fun known shows => ih endedNext shows
      exact Nat.le_trans (Nat.add_le_add_left (Nat.min_le_right _ _) _) onwards
  | yes holds _ ih =>
      unfold Grammar.approach
      split
      · exact ih ended shows
      · rename_i decided
        rw [Look.holds_of_decides shows decided] at holds
        cases holds
      · have := ih ended (Look.shows_or shows holds)
        omega
  | no fails _ ih =>
      unfold Grammar.approach
      split
      · rename_i decided
        rw [Look.holds_of_decides shows decided] at fails
        cases fails
      · exact ih ended shows
      · have := ih ended shows
        omega
  | item _ passes _ ih =>
      have := ih ended shows
      have := passes.remaining_le
      unfold Grammar.approach
      split
      · omega
      · omega
  | later _ one rest ih =>
      have endedNext := one.ended ended
      have front := one.least_le ended (rest.proper endedNext more) shows
      have back := ih endedNext (Cursor.shows_none _)
      have passed := rest.remaining_le
      unfold Grammar.approach at back ⊢
      split
      · omega
      · rename_i other
        rw [if_neg other] at back
        omega
  | lead _ _ ih =>
      have := ih ended shows
      unfold Grammar.approach
      omega
  | body lead passes ih =>
      have endedNext := lead.ended ended
      have front := lead.least_le ended (passes.proper endedNext more) shows
      have onwards := lead.onwards_le shows front fun known shows => ih endedNext shows
      exact Nat.le_trans (Nat.add_le_add_left (Nat.min_le_right _ _) _) onwards
  | last _ ih => exact ih ended shows
  | atLeastOne _ _ ih => exact ih ended shows
  | markLine _ ih => exact ih ended shows
  | intact _ ih => exact ih ended shows
  | @call _ rule _ c _ _ _ ih =>
      have := ih ended c.shows_none
      have := rule.approach_grammar
      unfold Grammar.approach
      omega

/-- A grammar that closes its blocks takes a token behind each place in one. -/
theorem closes_lt (passes : Passes b o g line c ns d) (ended : Token.Ended c.ahead)
    (closes : g.closes = true) : d.remaining < b.remaining := by
  -- after the place another grammar progresses or goes on from behind it
  have after {second : Grammar} {line : Nat} {d e : Cursor} {more : List Node} {closes : Bool}
      (two : Accepts second line d more e) (ended : Token.Ended d.ahead)
      (inside : d.remaining ≤ b.remaining) (before : closes = true → d.remaining < b.remaining)
      (either : (closes || second.progresses false) = true) : e.remaining < b.remaining := by
    have atMost := two.remaining_le
    rcases Bool.or_eq_true_iff.mp either with closed | progresses
    · have := before closed
      omega
    · have : e.remaining < d.remaining := (two.reads 1 []).progress ended progresses nofun
      omega
  induction passes with
  | here => cases closes
  | first passes two ih =>
      obtain ⟨either, _⟩ := Bool.and_eq_true_iff.mp closes
      exact after two (passes.accepts.ended ended) passes.le_remaining (ih ended) either
  | second one _ ih => exact ih (one.ended ended) (Bool.and_eq_true_iff.mp closes).2
  | yes _ _ ih => exact ih ended (Bool.and_eq_true_iff.mp closes).1
  | no _ _ ih => exact ih ended (Bool.and_eq_true_iff.mp closes).2
  | item _ _ rest ih =>
      have := ih ended (Bool.and_eq_true_iff.mp closes).2
      have := rest.remaining_le
      omega
  | later _ one _ ih => exact ih (one.ended ended) closes
  | lead passes body ih =>
      obtain ⟨either, _⟩ := Bool.and_eq_true_iff.mp closes
      exact after body (passes.accepts.ended ended) passes.le_remaining (ih ended) either
  | body lead _ ih => exact ih (lead.ended ended) (Bool.and_eq_true_iff.mp closes).2
  | last _ ih => exact ih ended closes
  | atLeastOne _ _ ih => exact ih ended closes
  | markLine _ ih => exact ih ended closes
  | intact _ ih => exact ih ended closes
  | @call _ rule _ _ _ _ _ ih => exact ih ended rule.grammar_closes

end Passes

end EntityFlow
