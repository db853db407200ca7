import Mathlib.Logic.Relation
import EntityFlow.Proofs.Grammar.Progress
import EntityFlow.Proofs.Token.Order

/-!
# Termination

Reading a source is a tree of visits: a visit reads a part of the grammar at a place, and it leads
to the visits of its parts. The number of tokens ahead is a measure for them
(`Parse.ofTokens_terminates`):

* **range**: every visit is at a place of the source, with at least the end token ahead;
* **direction**: no visit leads to an earlier place, and each comes to an end at a later one or the
  same;
* **progress**: an item that is repeated takes a token, and so does an item that recovers, whether
  it is read or given up;
* **recursion**: a construct that contains itself is entered again with fewer tokens ahead.

There is no infinite run, so the visits are well-founded.
-/

namespace EntityFlow

/-! ## Visits -/

/-- A grammar that is read at a place, with a marked line. -/
structure Visit where
  grammar : Grammar
  line : Nat
  reading : Reading

namespace Visit

/-- The visit of a whole source. -/
def source (language : Language) (tokens : List Token) : Visit :=
  ⟨language.grammar, 0, ⟨Cursor.start tokens, []⟩⟩

/-- One visit leads to another one that it needs for its outcome: a loop to its item and to the
loop again after it, a construct that contains itself to its grammar. -/
inductive Leads (limit : Nat) : Visit → Visit → Prop
  | first {first second line r} : Leads limit ⟨.seq first second, line, r⟩ ⟨first, line, r⟩
  | second {first second line r ns next} : Reads limit first line r (.nodes ns next) →
      Leads limit ⟨.seq first second, line, r⟩ ⟨second, line, next⟩
  | yes {look yes no line r} : look.holds line r.cursor = true →
      Leads limit ⟨.choose look yes no, line, r⟩ ⟨yes, line, r⟩
  | no {look yes no line r} : look.holds line r.cursor = false →
      Leads limit ⟨.choose look yes no, line, r⟩ ⟨no, line, r⟩
  | item {look item line r} : look.holds line r.cursor = true →
      Leads limit ⟨.many look item, line, r⟩ ⟨item, line, r⟩
  | again {look item line r ns next} : look.holds line r.cursor = true →
      Reads limit item line r (.nodes ns next) →
      Leads limit ⟨.many look item, line, r⟩ ⟨.many look item, line, next⟩
  | lead {lead cases otherwise body line r} :
      Leads limit ⟨.node lead cases otherwise body, line, r⟩ ⟨lead, line, r⟩
  | body {lead cases otherwise body line r ns next} : Reads limit lead line r (.nodes ns next) →
      Leads limit ⟨.node lead cases otherwise body, line, r⟩ ⟨body, line, next⟩
  | last {g line r} : Leads limit ⟨.last g, line, r⟩ ⟨g, line, r⟩
  | atLeastOne {expected g line r} : Leads limit ⟨.atLeastOne expected g, line, r⟩ ⟨g, line, r⟩
  | markLine {g line r} : Leads limit ⟨.markLine g, line, r⟩ ⟨g, r.cursor.lineBefore, r⟩
  | recovering {how g line r} : Leads limit ⟨.recovering how g, line, r⟩ ⟨g, line, r⟩
  | call {rule line r} : Leads limit ⟨.call rule, line, r⟩ ⟨rule.grammar, 0, r⟩

/-- One visit comes to another one in some steps. -/
abbrev Reaches (limit : Nat) : Visit → Visit → Prop := Relation.ReflTransGen (Leads limit)

variable {limit : Nat} {v w : Visit}

theorem Leads.moves (leads : Leads limit v w) :
    ∃ segment, v.reading.cursor.Moves segment w.reading.cursor := by
  cases leads with
  | second reads => exact reads.moves
  | again _ reads => exact reads.moves
  | body reads => exact reads.moves
  | _ => exact ⟨[], .refl _⟩

theorem Reaches.moves (reaches : v.Reaches limit w) :
    ∃ segment, v.reading.cursor.Moves segment w.reading.cursor := by
  induction reaches with
  | refl => exact ⟨[], .refl _⟩
  | tail _ leads ih =>
      obtain ⟨one, toMiddle⟩ := ih
      obtain ⟨two, toLast⟩ := leads.moves
      exact ⟨one ++ two, toMiddle.trans toLast⟩

/-- A visit that has an outcome is no start of an infinite run. -/
theorem acc_of_reads {g : Grammar} {line : Nat} {r : Reading} {o : Outcome}
    (reads : Reads limit g line r o) : Acc (fun w v => Leads limit v w) ⟨g, line, r⟩ := by
  induction reads with
  | done => exact .intro _ nofun
  | take => exact .intro _ nofun
  | fail => exact .intro _ nofun
  | seq one _ ihOne ihTwo =>
      refine .intro _ fun w leads => ?_
      cases leads with
      | first => exact ihOne
      | second reads =>
          cases reads.unique one
          exact ihTwo
  | seqBroken one ih =>
      refine .intro _ fun w leads => ?_
      cases leads with
      | first => exact ih
      | second reads => cases reads.unique one
  | yes holds _ ih =>
      refine .intro _ fun w leads => ?_
      cases leads with
      | yes => exact ih
      | no fails => exact absurd (holds.symm.trans fails) (by decide)
  | no fails _ ih =>
      refine .intro _ fun w leads => ?_
      cases leads with
      | yes holds => exact absurd (holds.symm.trans fails) (by decide)
      | no => exact ih
  | stop fails =>
      refine .intro _ fun w leads => ?_
      cases leads with
      | item holds => exact absurd (holds.symm.trans fails) (by decide)
      | again holds => exact absurd (holds.symm.trans fails) (by decide)
  | more _ one _ ihOne ihRest =>
      refine .intro _ fun w leads => ?_
      cases leads with
      | item => exact ihOne
      | again _ reads =>
          cases reads.unique one
          exact ihRest
  | moreBroken _ one ih =>
      refine .intro _ fun w leads => ?_
      cases leads with
      | item => exact ih
      | again _ reads => cases reads.unique one
  | node readsLead _ ihLead ihBody =>
      refine .intro _ fun w leads => ?_
      cases leads with
      | lead => exact ihLead
      | body reads =>
          cases reads.unique readsLead
          exact ihBody
  | leadBroken readsLead ih =>
      refine .intro _ fun w leads => ?_
      cases leads with
      | lead => exact ih
      | body reads => cases reads.unique readsLead
  | bodyBroken readsLead _ ihLead ihBody =>
      refine .intro _ fun w leads => ?_
      cases leads with
      | lead => exact ihLead
      | body reads =>
          cases reads.unique readsLead
          exact ihBody
  | last _ ih => exact .intro _ fun w leads => by cases leads; exact ih
  | lastBroken _ ih => exact .intro _ fun w leads => by cases leads; exact ih
  | atLeastOne _ _ ih => exact .intro _ fun w leads => by cases leads; exact ih
  | noneFound _ ih => exact .intro _ fun w leads => by cases leads; exact ih
  | atLeastOneBroken _ ih => exact .intro _ fun w leads => by cases leads; exact ih
  | markLine _ ih => exact .intro _ fun w leads => by cases leads; exact ih
  | intact _ ih => exact .intro _ fun w leads => by cases leads; exact ih
  | recovered _ ih => exact .intro _ fun w leads => by cases leads; exact ih
  | call _ ih => exact .intro _ fun w leads => by cases leads; exact ih

end Visit

/-! ## Items that recover -/

/-- Whether every construct that recovers starts in front of a proper token and takes one. -/
def Grammar.attends : Grammar → Bool → Bool
  | .done, _ => true
  | .take, _ => true
  | .fail _, _ => true
  | .seq first second, proper => first.attends proper && second.attends (proper && first.idle)
  | .choose look yes no, proper =>
      yes.attends (proper || look.tellsProper true) && no.attends (proper || look.tellsProper false)
  | .many look item, _ => item.attends (look.tellsProper true)
  | .node lead _ _ body, proper => lead.attends proper && body.attends (proper && lead.idle)
  | .last g, proper => g.attends proper
  | .atLeastOne _ g, proper => g.attends proper
  | .markLine g, proper => g.attends proper
  | .recovering _ g, proper => proper && g.progresses proper && g.attends proper
  | .call _, _ => true

theorem Rule.grammar_attends (rule : Rule) : rule.grammar.attends false = true := by
  cases rule with
  | value => decide
  | argument => decide
  | field => decide
  | ruleItem => decide

theorem Language.grammar_attends (language : Language) :
    language.grammar.attends false = true := by
  cases language with
  | entity => decide
  | flow => decide

namespace Visit

/-! ## What is known of a visit -/

/-- What is known of a visit inside a construct that started with `start` tokens ahead. -/
structure Known (start : Nat) (proper taken : Bool) (v : Visit) : Prop where
  ready : v.grammar.ready proper taken = true
  attends : v.grammar.attends proper = true
  within : v.reading.Within start proper taken

/-- A visit with at most `start` tokens ahead of which enough is known. -/
def Sound (start : Nat) (v : Visit) : Prop :=
  ∃ within ≤ start, ∃ proper taken, v.Known within proper taken

variable {limit start : Nat} {proper taken : Bool} {v w : Visit}

theorem Known.sound (known : v.Known start proper taken) : v.Sound start :=
  ⟨start, Nat.le_refl _, proper, taken, known⟩

theorem Known.rule {rule : Rule} {r : Reading} (ended : Token.Ended r.cursor.ahead) :
    (Visit.mk rule.grammar 0 r).Known r.remaining false false :=
  ⟨rule.grammar_ready, rule.grammar_attends, ended, nofun, Nat.le_refl _, nofun⟩

/-- What is known of a visit is known of those that it leads to. -/
theorem Known.step (known : v.Known start proper taken) (leads : Leads limit v w) :
    w.Sound start := by
  obtain ⟨ready, attends, within⟩ := known
  cases leads with
  | first =>
      exact Known.sound ⟨(Bool.and_eq_true_iff.mp ready).1, (Bool.and_eq_true_iff.mp attends).1,
        within⟩
  | second reads =>
      exact Known.sound ⟨(Bool.and_eq_true_iff.mp ready).2, (Bool.and_eq_true_iff.mp attends).2,
        within.after reads⟩
  | yes holds =>
      exact Known.sound ⟨(Bool.and_eq_true_iff.mp ready).1, (Bool.and_eq_true_iff.mp attends).1,
        within.look holds⟩
  | no fails =>
      exact Known.sound ⟨(Bool.and_eq_true_iff.mp ready).2, (Bool.and_eq_true_iff.mp attends).2,
        within.look fails⟩
  | item holds =>
      exact Known.sound ⟨(Bool.and_eq_true_iff.mp ready).1, attends, within.forget.look holds⟩
  | @again look item line r _ next holds reads =>
      have later := within.after reads
      have within : next.Within start false taken := by
        refine ⟨later.ended, nofun, later.bound, fun known => later.taken ?_⟩
        rw [known]
        rfl
      have known : (Visit.mk (.many look item) line next).Known start false taken :=
        ⟨ready, attends, within⟩
      exact known.sound
  | lead =>
      exact Known.sound ⟨(Bool.and_eq_true_iff.mp ready).1, (Bool.and_eq_true_iff.mp attends).1,
        within⟩
  | body reads =>
      exact Known.sound ⟨(Bool.and_eq_true_iff.mp ready).2, (Bool.and_eq_true_iff.mp attends).2,
        within.after reads⟩
  | last => exact Known.sound ⟨ready, attends, within⟩
  | atLeastOne => exact Known.sound ⟨ready, attends, within⟩
  | markLine => exact Known.sound ⟨ready, attends, within⟩
  | recovering => exact Known.sound ⟨ready, (Bool.and_eq_true_iff.mp attends).2, within⟩
  | call => exact ⟨_, within.bound, false, false, .rule within.ended⟩

theorem Sound.reaches (sound : v.Sound start) (reaches : v.Reaches limit w) : w.Sound start := by
  induction reaches with
  | refl => exact sound
  | tail _ leads ih =>
      obtain ⟨within, bound, _, _, known⟩ := ih
      obtain ⟨inner, innerBound, more⟩ := known.step leads
      exact ⟨inner, Nat.le_trans innerBound bound, more⟩

/-! ## The measure -/

theorem Sound.reads (limit : Nat) (sound : v.Sound start) :
    ∃ o, Reads limit v.grammar v.line v.reading o := by
  obtain ⟨_, _, _, _, known⟩ := sound
  exact ⟨_, Grammar.run_reads (fun rule next ended _ => Rule.run_reads limit rule next ended)
    v.grammar known.ready known.within⟩

/-- An item that is repeated takes a token. -/
theorem Sound.item_remaining {look : Look} {item : Grammar} {line : Nat} {r next : Reading}
    {ns : List Node} (sound : (Visit.mk (.many look item) line r).Sound start)
    (holds : look.holds line r.cursor = true) (reads : Reads limit item line r (.nodes ns next)) :
    next.remaining < r.remaining := by
  obtain ⟨_, _, _, _, known⟩ := sound
  have inside := known.within.forget.look holds
  exact reads.progress inside.ended (Bool.and_eq_true_iff.mp known.ready).2 inside.proper

/-- An item that recovers takes a token if it is read, and a token is left behind if it breaks. -/
theorem Sound.recovering_remaining {how : Recovery} {g : Grammar} {line : Nat} {r : Reading}
    (sound : (Visit.mk (.recovering how g) line r).Sound start) :
    (∀ ns next, Reads limit g line r (.nodes ns next) → next.remaining < r.remaining) ∧
    (∀ fault next, Reads limit g line r (.broken fault next) →
      (next.resumed limit how r.cursor fault).remaining < r.remaining) := by
  obtain ⟨_, _, _, _, known⟩ := sound
  obtain ⟨properAndProgresses, _⟩ := Bool.and_eq_true_iff.mp known.attends
  obtain ⟨proper, progresses⟩ := Bool.and_eq_true_iff.mp properAndProgresses
  refine ⟨?_, ?_⟩
  · intro ns next reads
    exact reads.progress known.within.ended progresses known.within.proper
  · intro fault next reads
    obtain ⟨_, moves⟩ := reads.moves
    exact Reading.resumed_remaining moves known.within.ended (known.within.proper proper)

/-- Inside a construct that contains itself such constructs are entered with fewer tokens ahead. -/
theorem Sound.call_remaining {rule inner : Rule} {line : Nat} {r : Reading}
    (sound : (Visit.mk (.call rule) line r).Sound start)
    (reaches : (Visit.mk rule.grammar 0 r).Reaches limit w) (calls : w.grammar = .call inner) :
    w.reading.remaining < r.remaining := by
  obtain ⟨_, _, _, _, known⟩ := sound
  obtain ⟨within, bound, _, _, knownInner⟩ := (Known.rule known.within.ended).sound.reaches reaches
  have ready := knownInner.ready
  rw [calls] at ready
  exact Nat.lt_of_lt_of_le (knownInner.within.taken ready) bound

theorem sound_source (language : Language) {tokens : List Token} (ended : Token.Ended tokens) :
    (source language tokens).Sound (tokens.length + 1) := by
  have within : (source language tokens).reading.Within (tokens.length + 1) false true :=
    ⟨ended, nofun, Nat.le_succ _, fun _ => Nat.lt_succ_self _⟩
  exact Known.sound ⟨language.grammar_ready, language.grammar_attends, within⟩

/-- A visit that keeps to the measure: the number of tokens ahead. -/
structure Measured (limit : Nat) (tokens : List Token) (v : Visit) : Prop where
  /-- A token of the source is the current one, and the one before it was taken last. -/
  inRange : v.reading.cursor.ahead ≠ [] ∧
    ∃ front, tokens = front ++ v.reading.cursor.ahead ∧
      v.reading.cursor.before = front.getLast?
  /-- The visit has an outcome, and that is at no earlier place. -/
  ends : ∃ o, Reads limit v.grammar v.line v.reading o ∧
    o.reading.remaining ≤ v.reading.remaining
  /-- It leads to no earlier place. -/
  forward : ∀ w, Leads limit v w → w.reading.remaining ≤ v.reading.remaining
  /-- The item of a loop takes a token. -/
  loop : ∀ look item, v.grammar = .many look item → look.holds v.line v.reading.cursor = true →
    ∀ ns next, Reads limit item v.line v.reading (.nodes ns next) →
      next.remaining < v.reading.remaining
  /-- An item that recovers takes a token where it is read. -/
  item : ∀ how g, v.grammar = .recovering how g → ∀ ns next,
    Reads limit g v.line v.reading (.nodes ns next) → next.remaining < v.reading.remaining
  /-- A recovery goes on behind the start of what broke. -/
  recovery : ∀ how g, v.grammar = .recovering how g → ∀ fault next,
    Reads limit g v.line v.reading (.broken fault next) →
      (next.resumed limit how v.reading.cursor fault).remaining < v.reading.remaining
  /-- Where a construct contains one that contains itself, fewer tokens are ahead of the inner
  one. -/
  recursion : ∀ rule, v.grammar = .call rule → ∀ inner w,
    (Visit.mk rule.grammar 0 v.reading).Reaches limit w → w.grammar = .call inner →
      w.reading.remaining < v.reading.remaining

theorem Sound.measured {tokens : List Token} (ended : Token.Ended tokens) (sound : v.Sound start)
    (fromStart : ∃ segment, (Cursor.start tokens).Moves segment v.reading.cursor) :
    v.Measured limit tokens := by
  obtain ⟨grammar, line, r⟩ := v
  refine ⟨?_, ?_, ?_, ?_, ?_, ?_, ?_⟩
  · obtain ⟨front, moves⟩ := fromStart
    have before := moves.before
    rw [show (Cursor.start tokens).before = none from rfl, Option.or_none] at before
    exact ⟨moves.kept ended.ne_nil, front, moves.ahead, before⟩
  · obtain ⟨o, reads⟩ := sound.reads limit
    exact ⟨o, reads, reads.remaining_le⟩
  · intro w leads
    obtain ⟨_, moves⟩ := leads.moves
    exact moves.remaining_le
  · rintro look item rfl holds ns next reads
    exact sound.item_remaining holds reads
  · rintro how g rfl ns next reads
    exact sound.recovering_remaining.1 ns next reads
  · rintro how g rfl fault next reads
    exact sound.recovering_remaining.2 fault next reads
  · rintro rule rfl inner w reaches calls
    exact sound.call_remaining reaches calls

end Visit

/-- Reading the tokens of a source ends at its end token. It starts no infinite run of visits, and
the number of tokens ahead is a measure for all visits that it comes to. -/
theorem Parse.ofTokens_terminates (language : Language) (limit : Nat) {tokens : List Token}
    (ended : Token.Ended tokens) :
    (∃ ns last, Reads (max limit 1) language.grammar 0 ⟨Cursor.start tokens, []⟩ (.nodes ns last) ∧
      (∃ t, t.kind = .eof ∧ last.cursor.ahead = [t]) ∧
      Parse.ofTokens language limit tokens =
        ⟨Node.ofTokens language.rootKind (Cursor.start tokens) last.cursor ns, last.faults⟩) ∧
    Acc (fun w v => Visit.Leads (max limit 1) v w) (Visit.source language tokens) ∧
    ∀ v, (Visit.source language tokens).Reaches (max limit 1) v →
      v.Measured (max limit 1) tokens := by
  obtain ⟨ns, last, reads, atEnd, equal⟩ := Parse.ofTokens_reads language limit ended
  have endedLast : Token.Ended last.cursor.ahead := reads.ended ended
  refine ⟨⟨ns, last, reads, ⟨last.cursor.current, atEnd, ?_⟩, equal⟩, Visit.acc_of_reads reads, ?_⟩
  · exact Cursor.ahead_eq_of_eof endedLast atEnd
  · intro v reaches
    exact ((Visit.sound_source language ended).reaches reaches).measured ended reaches.moves

/-- A block that is never closed, with a broken item in it. -/
theorem Parse.ofTokens_terminates_open :
    ∃ tokens, Token.lex "entity A \x7b =" = .ok tokens ∧ Token.Ended tokens ∧
      (∃ ns last, Reads 1 Language.entity.grammar 0 ⟨Cursor.start tokens, []⟩ (.nodes ns last) ∧
        (∃ t, t.kind = .eof ∧ last.cursor.ahead = [t]) ∧
        Parse.ofTokens .entity 0 tokens =
          ⟨Node.ofTokens .zdl (Cursor.start tokens) last.cursor ns, last.faults⟩) ∧
      Acc (fun w v => Visit.Leads 1 v w) (Visit.source .entity tokens) ∧
      ∀ v, (Visit.source .entity tokens).Reaches 1 v → v.Measured 1 tokens := by
  obtain ⟨tokens, lexed⟩ : ∃ tokens, Token.lex "entity A \x7b =" = .ok tokens :=
    Token.exists_of_isOk (by decide +kernel)
  have ended : Token.Ended tokens := (Token.lex_inOrder lexed).ended
  exact ⟨tokens, lexed, ended, ofTokens_terminates .entity 0 ended⟩

end EntityFlow
