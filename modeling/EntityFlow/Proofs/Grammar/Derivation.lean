import EntityFlow.Grammar.Parse
import EntityFlow.Proofs.Grammar.Movement

/-!
# Derivations

`Reads` says, one rule for each way a grammar can go, what reading comes to. It is a relation
beside the reader `Grammar.run`: no repetition is bounded in advance, and a construct that contains
itself is simply read again. Facts about trees are proved by induction on derivations; that the
reader only does what is derived is `Grammar.run_reads` in the module on progress.

The first such facts stand here: reading moves forward (`Reads.moves`), only adds faults
(`Reads.faults_prefix`) and goes one way only (`Reads.unique`), and a repetition ends where its look
fails (`Reads.many_stops`).
-/

namespace EntityFlow

namespace Outcome

/-- The outcome with nodes that were read before. -/
def after (ns : List Node) : Outcome → Outcome
  | .nodes more r => .nodes (ns ++ more) r
  | .broken fault r => .broken fault r

@[simp] theorem reading_after (ns : List Node) (o : Outcome) :
    (o.after ns).reading = o.reading := by
  cases o <;> rfl

theorem after_eq_nodes {ns all : List Node} {o : Outcome} {r : Reading}
    (equal : o.after ns = .nodes all r) : ∃ more, o = .nodes more r ∧ all = ns ++ more := by
  cases o with
  | nodes more last =>
      injection equal with nodesEqual readingEqual
      exact ⟨more, by rw [readingEqual], nodesEqual.symm⟩
  | broken fault last => cases equal

theorem after_eq_broken {ns : List Node} {o : Outcome} {fault : Fault} {r : Reading}
    (equal : o.after ns = .broken fault r) : o = .broken fault r := by
  cases o with
  | nodes more last => cases equal
  | broken f last => exact equal

end Outcome

/-- `Reads limit g line r o`: reading by `g` from `r`, with `line` marked, comes to `o`. -/
inductive Reads (limit : Nat) : Grammar → Nat → Reading → Outcome → Prop
  | done {line r} : Reads limit .done line r (.nodes [] r)
  | take {line r} : Reads limit .take line r (.nodes [] ⟨r.cursor.advance, r.faults⟩)
  | fail {expected line r} : Reads limit (.fail expected) line r (.broken (r.fault expected) r)
  | seq {first second line r ns next o} : Reads limit first line r (.nodes ns next) →
      Reads limit second line next o → Reads limit (.seq first second) line r (o.after ns)
  | seqBroken {first second line r fault next} : Reads limit first line r (.broken fault next) →
      Reads limit (.seq first second) line r (.broken fault next)
  | yes {look yes no line r o} : look.holds line r.cursor = true → Reads limit yes line r o →
      Reads limit (.choose look yes no) line r o
  | no {look yes no line r o} : look.holds line r.cursor = false → Reads limit no line r o →
      Reads limit (.choose look yes no) line r o
  | stop {look item line r} : look.holds line r.cursor = false →
      Reads limit (.many look item) line r (.nodes [] r)
  | more {look item line r ns next o} : look.holds line r.cursor = true →
      Reads limit item line r (.nodes ns next) → Reads limit (.many look item) line next o →
      Reads limit (.many look item) line r (o.after ns)
  | moreBroken {look item line r fault next} : look.holds line r.cursor = true →
      Reads limit item line r (.broken fault next) →
      Reads limit (.many look item) line r (.broken fault next)
  | node {lead cases otherwise body line r ns next more last} :
      Reads limit lead line r (.nodes ns next) → Reads limit body line next (.nodes more last) →
      Reads limit (.node lead cases otherwise body) line r
        (.nodes (Node.wrap (Grammar.pick line next.cursor otherwise cases) r.cursor last.cursor
          (ns ++ more)) last)
  | leadBroken {lead cases otherwise body line r fault next} :
      Reads limit lead line r (.broken fault next) →
      Reads limit (.node lead cases otherwise body) line r (.broken fault next)
  | bodyBroken {lead cases otherwise body line r ns next fault last} :
      Reads limit lead line r (.nodes ns next) → Reads limit body line next (.broken fault last) →
      Reads limit (.node lead cases otherwise body) line r (.broken fault last)
  | last {g line r ns next} : Reads limit g line r (.nodes ns next) →
      Reads limit (.last g) line r (.nodes ns.getLast?.toList next)
  | lastBroken {g line r fault next} : Reads limit g line r (.broken fault next) →
      Reads limit (.last g) line r (.broken fault next)
  | atLeastOne {expected g line r ns next} : Reads limit g line r (.nodes ns next) → ns ≠ [] →
      Reads limit (.atLeastOne expected g) line r (.nodes ns next)
  | noneFound {expected g line r next} : Reads limit g line r (.nodes [] next) →
      Reads limit (.atLeastOne expected g) line r (.broken (next.fault expected) next)
  | atLeastOneBroken {expected g line r fault next} : Reads limit g line r (.broken fault next) →
      Reads limit (.atLeastOne expected g) line r (.broken fault next)
  | markLine {g line r o} : Reads limit g r.cursor.lineBefore r o →
      Reads limit (.markLine g) line r o
  | intact {how g line r ns next} : Reads limit g line r (.nodes ns next) →
      Reads limit (.recovering how g) line r (.nodes ns next)
  | recovered {how g line r fault next} : Reads limit g line r (.broken fault next) →
      Reads limit (.recovering how g) line r (next.recover limit how r.cursor fault)
  | call {rule line r o} : Reads limit rule.grammar 0 r o → Reads limit (.call rule) line r o

/-! ## Recovering -/

namespace Reading

/-- The place at which a recovery leaves off. -/
def resumed (limit : Nat) (how : Recovery) (first : Cursor) (fault : Fault) (r : Reading) :
    Cursor :=
  if (r.record limit fault).faults.length < limit then how.resume first r.cursor
  else Recovery.toEnd r.cursor.before r.cursor.ahead

@[simp] theorem cursor_record (limit : Nat) (fault : Fault) (r : Reading) :
    (r.record limit fault).cursor = r.cursor := by
  unfold Reading.record
  split <;> rfl

theorem recover_eq (limit : Nat) (how : Recovery) (first : Cursor) (fault : Fault) (r : Reading) :
    r.recover limit how first fault =
      .nodes [Node.ofTokens .error first (r.resumed limit how first fault) []]
        ⟨r.resumed limit how first fault, (r.record limit fault).faults⟩ := by
  simp only [Reading.recover, Reading.resumed, cursor_record]

theorem resumed_moves (limit : Nat) (how : Recovery) (first : Cursor) (fault : Fault)
    (r : Reading) : ∃ segment, r.cursor.Moves segment (r.resumed limit how first fault) := by
  unfold Reading.resumed
  split
  · exact Recovery.resume_moves how first r.cursor
  · exact Recovery.toEnd_moves _ _

/-- A recovery from a construct that starts with a proper token leaves that token behind. -/
theorem resumed_remaining {limit : Nat} {how : Recovery} {first : Cursor} {fault : Fault}
    {r : Reading} {segment : List Token} (moves : first.Moves segment r.cursor)
    (ended : Token.Ended first.ahead) (proper : first.current.kind ≠ .eof) :
    (r.resumed limit how first fault).remaining < first.remaining := by
  unfold Reading.resumed
  split
  · exact Recovery.resume_remaining moves ended proper
  · obtain ⟨rest, toEnd⟩ := Recovery.toEnd_moves r.cursor.before r.cursor.ahead
    have whole := moves.trans toEnd
    rw [whole.remaining_lt_iff]
    intro nothing
    have atEnd := Recovery.toEnd_current r.cursor.before (moves.ended ended).2
    rw [nothing] at whole
    rw [whole.eq_of_nil] at atEnd
    exact proper atEnd

theorem faults_record (limit : Nat) (fault : Fault) (r : Reading) :
    r.faults <+: (r.record limit fault).faults := by
  unfold Reading.record
  split
  · exact List.prefix_append _ _
  · exact List.prefix_refl _

/-- Where more faults are wanted, the last one was recorded. -/
theorem mem_faults_record {limit : Nat} {fault : Fault} {r : Reading}
    (fewer : (r.record limit fault).faults.length < limit) :
    fault ∈ (r.record limit fault).faults := by
  unfold Reading.record at fewer ⊢
  split
  · exact List.mem_append_right _ List.mem_cons_self
  · rename_i full
    rw [if_neg full] at fewer
    exact absurd fewer full

/-- Where at least one fault is wanted, there is one after a recovery. -/
theorem faults_record_ne_nil {limit : Nat} (wanted : 0 < limit) (fault : Fault) (r : Reading) :
    (r.record limit fault).faults ≠ [] := by
  unfold Reading.record
  split
  · simp
  · rename_i full
    intro empty
    rw [empty] at full
    exact full wanted

end Reading

/-! ## Facts about all derivations -/

namespace Reads

variable {limit : Nat} {g : Grammar} {line : Nat} {r : Reading} {o : Outcome}

/-- What every step of a reading keeps, the whole reading keeps: `R` relates a reading to what it
comes to if it is reflexive and transitive, a taken token keeps it, and so does a recovery. -/
theorem carries {R : Reading → Reading → Prop} (refl : ∀ r, R r r)
    (trans : ∀ {first middle last}, R first middle → R middle last → R first last)
    (take : ∀ r : Reading, R r ⟨r.cursor.advance, r.faults⟩)
    (recover : ∀ {how g line r fault next}, Reads limit g line r (.broken fault next) → R r next →
      R r ⟨next.resumed limit how r.cursor fault, (next.record limit fault).faults⟩)
    (reads : Reads limit g line r o) : R r o.reading := by
  induction reads with
  | take => exact take _
  | seq _ _ ihFirst ihSecond =>
      rw [Outcome.reading_after]
      exact trans ihFirst ihSecond
  | more _ _ _ ihItem ihMore =>
      rw [Outcome.reading_after]
      exact trans ihItem ihMore
  | node _ _ ihLead ihBody => exact trans ihLead ihBody
  | bodyBroken _ _ ihLead ihBody => exact trans ihLead ihBody
  | recovered broken ih =>
      rw [Reading.recover_eq]
      exact recover broken ih
  | seqBroken _ ih => exact ih
  | yes _ _ ih => exact ih
  | no _ _ ih => exact ih
  | moreBroken _ _ ih => exact ih
  | leadBroken _ ih => exact ih
  | last _ ih => exact ih
  | lastBroken _ ih => exact ih
  | atLeastOne _ _ ih => exact ih
  | noneFound _ ih => exact ih
  | atLeastOneBroken _ ih => exact ih
  | markLine _ ih => exact ih
  | intact _ ih => exact ih
  | call _ ih => exact ih
  | done => exact refl _
  | fail => exact refl _
  | stop => exact refl _

/-- Reading moves forward. -/
theorem moves (reads : Reads limit g line r o) :
    ∃ segment, r.cursor.Moves segment o.reading.cursor := by
  refine reads.carries (R := fun first last => ∃ segment, first.cursor.Moves segment last.cursor)
    (fun r => ⟨[], .refl _⟩) ?_ (fun r => r.cursor.advance_moves) ?_
  · rintro first middle last ⟨one, toMiddle⟩ ⟨two, toLast⟩
    exact ⟨one ++ two, toMiddle.trans toLast⟩
  · rintro how g line r fault next _ ⟨one, toNext⟩
    obtain ⟨two, toResumed⟩ := next.resumed_moves limit how r.cursor fault
    exact ⟨one ++ two, toNext.trans toResumed⟩

/-- The end token stays ahead. -/
theorem ended (reads : Reads limit g line r o) (ended : Token.Ended r.cursor.ahead) :
    Token.Ended o.reading.cursor.ahead := by
  obtain ⟨_, moves⟩ := reads.moves
  exact (moves.ended ended).2

theorem remaining_le (reads : Reads limit g line r o) :
    o.reading.remaining ≤ r.remaining := by
  obtain ⟨_, moves⟩ := reads.moves
  exact moves.remaining_le

/-- Recorded faults stay recorded, and new ones follow them. -/
theorem faults_prefix (reads : Reads limit g line r o) : r.faults <+: o.reading.faults := by
  refine reads.carries (R := fun first last => first.faults <+: last.faults)
    (fun _ => List.prefix_refl _) List.IsPrefix.trans (fun _ => List.prefix_refl _) ?_
  intro how g line r fault next _ kept
  exact kept.trans (next.faults_record limit fault)

/-- A grammar is read in one way only. -/
theorem unique {o' : Outcome} (one : Reads limit g line r o) (other : Reads limit g line r o') :
    o = o' := by
  induction one generalizing o' with
  | done =>
      cases other
      rfl
  | take =>
      cases other
      rfl
  | fail =>
      cases other
      rfl
  | seq _ _ ihOne ihTwo =>
      cases other with
      | seq one two =>
          cases ihOne one
          rw [ihTwo two]
      | seqBroken one => cases ihOne one
  | seqBroken _ ih =>
      cases other with
      | seq one _ => cases ih one
      | seqBroken one => exact ih one
  | yes holds _ ih =>
      cases other with
      | yes _ reads => exact ih reads
      | no fails _ => exact absurd (holds.symm.trans fails) (by decide)
  | no fails _ ih =>
      cases other with
      | yes holds _ => exact absurd (holds.symm.trans fails) (by decide)
      | no _ reads => exact ih reads
  | stop fails =>
      cases other with
      | stop => rfl
      | more holds _ _ => exact absurd (holds.symm.trans fails) (by decide)
      | moreBroken holds _ => exact absurd (holds.symm.trans fails) (by decide)
  | more holds _ _ ihItem ihRest =>
      cases other with
      | stop fails => exact absurd (holds.symm.trans fails) (by decide)
      | more _ one rest =>
          cases ihItem one
          rw [ihRest rest]
      | moreBroken _ one => cases ihItem one
  | moreBroken holds _ ih =>
      cases other with
      | stop fails => exact absurd (holds.symm.trans fails) (by decide)
      | more _ one _ => cases ih one
      | moreBroken _ one => exact ih one
  | node _ _ ihLead ihBody =>
      cases other with
      | node readsLead readsBody =>
          cases ihLead readsLead
          cases ihBody readsBody
          rfl
      | leadBroken readsLead => cases ihLead readsLead
      | bodyBroken readsLead readsBody =>
          cases ihLead readsLead
          cases ihBody readsBody
  | leadBroken _ ih =>
      cases other with
      | node readsLead _ => cases ih readsLead
      | leadBroken readsLead => exact ih readsLead
      | bodyBroken readsLead _ => cases ih readsLead
  | bodyBroken _ _ ihLead ihBody =>
      cases other with
      | node readsLead readsBody =>
          cases ihLead readsLead
          cases ihBody readsBody
      | leadBroken readsLead => cases ihLead readsLead
      | bodyBroken readsLead readsBody =>
          cases ihLead readsLead
          exact ihBody readsBody
  | last _ ih =>
      cases other with
      | last reads =>
          cases ih reads
          rfl
      | lastBroken reads => cases ih reads
  | lastBroken _ ih =>
      cases other with
      | last reads => cases ih reads
      | lastBroken reads => exact ih reads
  | atLeastOne _ some ih =>
      cases other with
      | atLeastOne reads _ => exact ih reads
      | noneFound reads =>
          cases ih reads
          exact absurd rfl some
      | atLeastOneBroken reads => cases ih reads
  | noneFound _ ih =>
      cases other with
      | atLeastOne reads some =>
          cases ih reads
          exact absurd rfl some
      | noneFound reads =>
          cases ih reads
          rfl
      | atLeastOneBroken reads => cases ih reads
  | atLeastOneBroken _ ih =>
      cases other with
      | atLeastOne reads _ => cases ih reads
      | noneFound reads => cases ih reads
      | atLeastOneBroken reads => exact ih reads
  | markLine _ ih =>
      cases other with
      | markLine reads => exact ih reads
  | intact _ ih =>
      cases other with
      | intact reads => exact ih reads
      | recovered reads => cases ih reads
  | recovered _ ih =>
      cases other with
      | intact reads => cases ih reads
      | recovered reads =>
          cases ih reads
          rfl
  | call _ ih =>
      cases other with
      | call reads => exact ih reads

/-- Induction on the ways to succeed. What breaks on the way shows only where it is recovered
from. -/
@[elab_as_elim]
theorem succeeds
    {motive : ∀ g line r ns next, Reads limit g line r (.nodes ns next) → Prop}
    (done : ∀ {line r}, motive .done line r [] r .done)
    (take : ∀ {line r}, motive .take line r [] ⟨r.cursor.advance, r.faults⟩ .take)
    (seq : ∀ {first second line r ns next more last}
      (one : Reads limit first line r (.nodes ns next))
      (two : Reads limit second line next (.nodes more last)),
      motive _ _ _ _ _ one → motive _ _ _ _ _ two →
      motive (.seq first second) line r (ns ++ more) last (.seq one two))
    (yes : ∀ {look yes no line r ns next} (holds : look.holds line r.cursor = true)
      (reads : Reads limit yes line r (.nodes ns next)), motive _ _ _ _ _ reads →
      motive (.choose look yes no) line r ns next (.yes holds reads))
    (no : ∀ {look yes no line r ns next} (fails : look.holds line r.cursor = false)
      (reads : Reads limit no line r (.nodes ns next)), motive _ _ _ _ _ reads →
      motive (.choose look yes no) line r ns next (.no fails reads))
    (stop : ∀ {look item line r} (fails : look.holds line r.cursor = false),
      motive (.many look item) line r [] r (.stop fails))
    (more : ∀ {look item line r ns next more last} (holds : look.holds line r.cursor = true)
      (one : Reads limit item line r (.nodes ns next))
      (rest : Reads limit (.many look item) line next (.nodes more last)),
      motive _ _ _ _ _ one → motive _ _ _ _ _ rest →
      motive (.many look item) line r (ns ++ more) last (.more holds one rest))
    (node : ∀ {lead cases otherwise body line r ns next more last}
      (readsLead : Reads limit lead line r (.nodes ns next))
      (readsBody : Reads limit body line next (.nodes more last)),
      motive _ _ _ _ _ readsLead → motive _ _ _ _ _ readsBody →
      motive (.node lead cases otherwise body) line r _ last (.node readsLead readsBody))
    (last : ∀ {g line r ns next} (reads : Reads limit g line r (.nodes ns next)),
      motive _ _ _ _ _ reads → motive (.last g) line r ns.getLast?.toList next (.last reads))
    (atLeastOne : ∀ {expected g line r ns next} (reads : Reads limit g line r (.nodes ns next))
      (some : ns ≠ []), motive _ _ _ _ _ reads →
      motive (.atLeastOne expected g) line r ns next (.atLeastOne reads some))
    (markLine : ∀ {g line r ns next}
      (reads : Reads limit g r.cursor.lineBefore r (.nodes ns next)), motive _ _ _ _ _ reads →
      motive (.markLine g) line r ns next (.markLine reads))
    (intact : ∀ {how g line r ns next} (reads : Reads limit g line r (.nodes ns next)),
      motive _ _ _ _ _ reads → motive (.recovering how g) line r ns next (.intact reads))
    (recovered : ∀ {how g line r fault next} (broken : Reads limit g line r (.broken fault next)),
      motive (.recovering how g) line r
        [Node.ofTokens .error r.cursor (next.resumed limit how r.cursor fault) []]
        ⟨next.resumed limit how r.cursor fault, (next.record limit fault).faults⟩
        (Reading.recover_eq limit how r.cursor fault next ▸ .recovered broken))
    (call : ∀ {rule line r ns next} (reads : Reads limit rule.grammar 0 r (.nodes ns next)),
      motive _ _ _ _ _ reads → motive (.call rule) line r ns next (.call reads))
    {g line r ns next} (reads : Reads limit g line r (.nodes ns next)) :
    motive g line r ns next reads := by
  -- the induction is on all outcomes; the equation rules out those that broke
  suffices every : ∀ {o} (reads : Reads limit g line r o) {ns next} (outcome : o = .nodes ns next),
      motive g line r ns next (outcome ▸ reads) from every reads rfl
  clear reads
  intro o reads
  induction reads with
  | done =>
      intro ns next outcome
      cases outcome
      exact done
  | take =>
      intro ns next outcome
      cases outcome
      exact take
  | seq one two ihOne ihTwo =>
      intro all last outcome
      obtain ⟨more, rfl, rfl⟩ := Outcome.after_eq_nodes outcome
      exact seq one two (ihOne rfl) (ihTwo rfl)
  | yes holds reads ih =>
      intro ns next outcome
      subst outcome
      exact yes holds reads (ih rfl)
  | no fails reads ih =>
      intro ns next outcome
      subst outcome
      exact no fails reads (ih rfl)
  | stop fails =>
      intro ns next outcome
      cases outcome
      exact stop fails
  | more holds one rest ihOne ihRest =>
      intro all last outcome
      obtain ⟨tail, rfl, rfl⟩ := Outcome.after_eq_nodes outcome
      exact more holds one rest (ihOne rfl) (ihRest rfl)
  | node readsLead readsBody ihLead ihBody =>
      intro all last outcome
      cases outcome
      exact node readsLead readsBody (ihLead rfl) (ihBody rfl)
  | last reads ih =>
      intro ns next outcome
      cases outcome
      exact last reads (ih rfl)
  | atLeastOne reads some ih =>
      intro ns next outcome
      cases outcome
      exact atLeastOne reads some (ih rfl)
  | markLine reads ih =>
      intro ns next outcome
      subst outcome
      exact markLine reads (ih rfl)
  | intact reads ih =>
      intro ns next outcome
      cases outcome
      exact intact reads (ih rfl)
  | @recovered how g line r fault next broken _ =>
      intro ns last outcome
      rw [Reading.recover_eq] at outcome
      cases outcome
      exact recovered broken
  | call reads ih =>
      intro ns next outcome
      subst outcome
      exact call reads (ih rfl)
  | _ =>
      intro ns next outcome
      cases outcome

/-- A repetition ends where its look fails. -/
theorem many_stops {look : Look} {item : Grammar} {ns : List Node} {next : Reading}
    (reads : Reads limit (.many look item) line r (.nodes ns next)) :
    look.holds line next.cursor = false := by
  generalize shape : Grammar.many look item = g at reads
  generalize outcome : Outcome.nodes ns next = o at reads
  induction reads generalizing ns with
  | stop stopped =>
      cases shape
      cases outcome
      exact stopped
  | more _ _ _ _ ih =>
      obtain ⟨more, equal, _⟩ := Outcome.after_eq_nodes outcome.symm
      exact ih shape equal.symm
  | moreBroken => cases outcome
  | _ => cases shape

end Reads

end EntityFlow
