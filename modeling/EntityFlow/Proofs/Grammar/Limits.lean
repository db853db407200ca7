import EntityFlow.Proofs.Grammar.Depth

/-!
# Limits on the number of faults

A reading that wants fewer faults goes the same way as one that wants more, up to the last fault
that it wants. Then it gives up all that is left.

* **full readings**: once as many faults are recorded as are wanted, no more are recorded
  (`Reads.faults_of_full`), and nothing but the end token is ahead (`Reads.atEnd_of_full`);
* **two limits**: under the smaller limit the outcome is the same, or the reading is full and its
  faults are the first ones of the other (`Reads.follows`);
* **blocks and nodes**: a construct in which the last wanted fault is recorded lacks its closing
  brace, so it breaks itself (`Reads.not_full_of_closed`, for grammars that `Grammar.closed`
  accepts);
* **the order of faults**: faults are recorded in the order of the source (`Reads.sorted`).

Together these say what becomes of a source under two limits (`Parse.limits`).
-/

namespace EntityFlow

/-! ## Full readings -/

/-- As many faults are recorded as are wanted. -/
def Reading.Full (limit : Nat) (r : Reading) : Prop := limit ≤ r.faults.length

namespace Reading

variable {limit : Nat} {r next : Reading}

theorem Full.of_faults (full : r.Full limit) (same : next.faults = r.faults) : next.Full limit := by
  unfold Full
  rw [same]
  exact full

theorem record_of_full (full : r.Full limit) (fault : Fault) : r.record limit fault = r := by
  unfold Reading.record
  rw [if_neg (Nat.not_lt.mpr full)]

theorem faults_record_of_not_full (fewer : ¬ r.Full limit) (fault : Fault) :
    (r.record limit fault).faults = r.faults ++ [fault] := by
  unfold Reading.record
  rw [if_pos (Nat.lt_of_not_le fewer)]

theorem resumed_of_full {fault : Fault} (full : (r.record limit fault).Full limit) (how : Recovery)
    (first : Cursor) :
    r.resumed limit how first fault = Recovery.toEnd r.cursor.before r.cursor.ahead := by
  unfold Reading.resumed
  rw [if_neg (Nat.not_lt.mpr full)]

end Reading

namespace Reads

variable {limit line : Nat} {g : Grammar} {r next : Reading} {o : Outcome}

/-- A full reading records no more faults. -/
theorem faults_of_full (reads : Reads limit g line r o) (full : r.Full limit) :
    o.reading.faults = r.faults := by
  suffices kept : r.Full limit → o.reading.faults = r.faults from kept full
  refine reads.carries (R := fun first last => first.Full limit → last.faults = first.faults)
    (fun _ _ => rfl) ?_ (fun _ _ => rfl) ?_
  · intro first middle last one two full
    exact (two (full.of_faults (one full))).trans (one full)
  · intro how g line r fault next _ kept full
    show (next.record limit fault).faults = r.faults
    rw [Reading.record_of_full (full.of_faults (kept full))]
    exact kept full

/-- No more faults are recorded than are wanted. -/
theorem length_faults_le (reads : Reads limit g line r o) (few : r.faults.length ≤ limit) :
    o.reading.faults.length ≤ limit := by
  suffices kept : r.faults.length ≤ limit → o.reading.faults.length ≤ limit from kept few
  refine reads.carries
    (R := fun first last => first.faults.length ≤ limit → last.faults.length ≤ limit)
    (fun _ => id) (fun one two => two ∘ one) (fun _ => id) ?_
  intro how g line r fault next _ kept few
  show (next.record limit fault).faults.length ≤ limit
  unfold Reading.record
  split
  · rename_i fewer
    rw [List.length_append]
    exact fewer
  · exact kept few

/-- What is read at the end token leaves the place where it is. -/
theorem cursor_of_atEnd (reads : Reads limit g line r o) (ended : Token.Ended r.cursor.ahead)
    (atEnd : r.cursor.current.kind = .eof) : o.reading.cursor = r.cursor := by
  obtain ⟨_, moves⟩ := reads.moves
  exact moves.eq_of_eof ended atEnd

/-- Where a reading becomes full, nothing but the end token is left. -/
theorem atEnd_of_full (reads : Reads limit g line r o) (ended : Token.Ended r.cursor.ahead)
    (fewer : ¬ r.Full limit) (full : o.reading.Full limit) :
    o.reading.cursor.current.kind = .eof := by
  suffices kept : (∃ segment, r.cursor.Moves segment o.reading.cursor) ∧
      (Token.Ended r.cursor.ahead → ¬ r.Full limit → o.reading.Full limit →
        o.reading.cursor.current.kind = .eof) from kept.2 ended fewer full
  refine reads.carries (R := fun first last => (∃ segment, first.cursor.Moves segment last.cursor) ∧
    (Token.Ended first.cursor.ahead → ¬ first.Full limit → last.Full limit →
      last.cursor.current.kind = .eof)) ?_ ?_ ?_ ?_
  · intro r
    exact ⟨⟨[], .refl _⟩, fun _ fewer full => absurd full fewer⟩
  · rintro first middle last ⟨⟨front, toMiddle⟩, one⟩ ⟨⟨back, toLast⟩, two⟩
    refine ⟨⟨front ++ back, toMiddle.trans toLast⟩, ?_⟩
    intro ended fewer full
    have endedMiddle := (toMiddle.ended ended).2
    by_cases already : middle.Full limit
    · -- the end token cannot be passed
      have atEnd := one ended fewer already
      rw [toLast.eq_of_eof endedMiddle atEnd]
      exact atEnd
    · exact two endedMiddle already full
  · intro r
    exact ⟨r.cursor.advance_moves, fun _ fewer full => absurd full fewer⟩
  · rintro how g line r fault next broken ⟨⟨front, toNext⟩, _⟩
    obtain ⟨back, toResumed⟩ := next.resumed_moves limit how r.cursor fault
    refine ⟨⟨front ++ back, toNext.trans toResumed⟩, ?_⟩
    intro ended _ full
    show (next.resumed limit how r.cursor fault).current.kind = .eof
    rw [Reading.resumed_of_full full]
    exact Recovery.toEnd_current _ (toNext.ended ended).2

end Reads

/-! ## Two limits -/

/-- The outcome under a smaller limit is that under a larger one, or it is full, and its faults are
the first ones of the other. -/
def Outcome.Follows (limit : Nat) (o o' : Outcome) : Prop :=
  (o = o' ∧ ¬ o.reading.Full limit) ∨
    (o.reading.Full limit ∧ o.reading.faults <+: o'.reading.faults)

namespace Outcome.Follows

variable {limit : Nat} {o o' : Outcome} {ns : List Node} {next : Reading} {fault : Fault}

/-- Outcomes with the same readings follow each other as these do. -/
theorem of_full {p p' : Outcome} (follows : o.Follows limit o') (full : o.reading.Full limit)
    (same : p.reading.faults = o.reading.faults)
    (later : o'.reading.faults <+: p'.reading.faults) : p.Follows limit p' := by
  have earlier : o.reading.faults <+: o'.reading.faults := by
    rcases follows with ⟨equal, fewer⟩ | ⟨_, earlier⟩
    · exact absurd full fewer
    · exact earlier
  refine Or.inr ⟨full.of_faults same, ?_⟩
  rw [same]
  exact earlier.trans later

theorem eq_of_not_full (follows : o.Follows limit o') (fewer : ¬ o.reading.Full limit) :
    o' = o := by
  rcases follows with ⟨equal, _⟩ | ⟨full, _⟩
  · exact equal.symm
  · exact absurd full fewer

/-- Outcomes that differ from these in their nodes alone follow each other, too. -/
theorem map {change : Outcome → Outcome} (follows : o.Follows limit o')
    (keeps : ∀ o, (change o).reading = o.reading) : (change o).Follows limit (change o') := by
  rcases follows with ⟨equal, fewer⟩ | ⟨full, earlier⟩
  · refine Or.inl ⟨by rw [equal], ?_⟩
    rw [keeps]
    exact fewer
  · refine Or.inr ?_
    rw [keeps, keeps]
    exact ⟨full, earlier⟩

end Outcome.Follows

/-- A recovery under a smaller limit follows that under a larger one. -/
theorem Reading.recover_follows {m n : Nat} (fewer : m ≤ n) (how : Recovery) (first : Cursor)
    (fault : Fault) {next : Reading} (wanted : ¬ next.Full m) :
    (next.recover m how first fault).Follows m (next.recover n how first fault) := by
  have wantedLater : ¬ next.Full n := fun full => wanted (Nat.le_trans fewer full)
  have noted : (next.record m fault).faults = (next.record n fault).faults := by
    rw [faults_record_of_not_full wanted, faults_record_of_not_full wantedLater]
  rw [recover_eq, recover_eq]
  by_cases full : (next.record m fault).Full m
  · refine Or.inr ⟨full, ?_⟩
    exact noted ▸ List.prefix_refl _
  · -- neither limit is reached, so both recoveries resume at one place
    have resumed : next.resumed m how first fault = next.resumed n how first fault := by
      unfold Reading.Full at full
      unfold resumed
      rw [← noted, if_pos (by omega), if_pos (by omega)]
    refine Or.inl ⟨?_, full⟩
    rw [resumed, noted]

/-! ## One reading after the other -/

namespace Outcome

/-- An outcome with its nodes as the parts of a node, after a lead was read. -/
def wrapped (line : Nat) (cases : List (Look × Node.Kind)) (otherwise : Option Node.Kind)
    (first : Cursor) (ns : List Node) (next : Reading) : Outcome → Outcome
  | .nodes more last =>
      .nodes (Node.wrap (Grammar.pick line next.cursor otherwise cases) first last.cursor
        (ns ++ more)) last
  | .broken fault last => .broken fault last

/-- An outcome with only the last of its nodes. -/
def lastOnly : Outcome → Outcome
  | .nodes ns next => .nodes ns.getLast?.toList next
  | .broken fault next => .broken fault next

/-- An outcome that is a fault if it has no node. -/
def required (expected : Expectation) : Outcome → Outcome
  | .nodes [] next => .broken (next.fault expected) next
  | .nodes (n :: ns) next => .nodes (n :: ns) next
  | .broken fault next => .broken fault next

/-- An outcome after a recovery, if there is a fault to recover from. -/
def mended (limit : Nat) (how : Recovery) (first : Cursor) : Outcome → Outcome
  | .nodes ns next => .nodes ns next
  | .broken fault next => next.recover limit how first fault

theorem reading_wrapped (line : Nat) (cases : List (Look × Node.Kind))
    (otherwise : Option Node.Kind) (first : Cursor) (ns : List Node) (next : Reading)
    (o : Outcome) :
    (o.wrapped line cases otherwise first ns next).reading = o.reading := by
  cases o <;> rfl

theorem reading_lastOnly (o : Outcome) : o.lastOnly.reading = o.reading := by
  cases o <;> rfl

theorem reading_required (expected : Expectation) (o : Outcome) :
    (o.required expected).reading = o.reading := by
  cases o with
  | nodes ns next => cases ns <;> rfl
  | broken fault next => rfl

theorem faults_mended (limit : Nat) (how : Recovery) (first : Cursor) (o : Outcome) :
    o.reading.faults <+: (o.mended limit how first).reading.faults := by
  cases o with
  | nodes ns next => exact List.prefix_refl _
  | broken fault next =>
      show next.faults <+: (next.recover limit how first fault).reading.faults
      rw [Reading.recover_eq]
      exact next.faults_record limit fault

/-- What a first outcome comes to: a success goes on by a grammar, and a fault stays. -/
def GoesOn (limit : Nat) (g : Grammar) (line : Nat)
    (finish : List Node → Reading → Outcome → Outcome) (first whole : Outcome) : Prop :=
  match first with
  | .nodes ns next => ∃ rest, Reads limit g line next rest ∧ whole = finish ns next rest
  | .broken fault next => whole = .broken fault next

variable {m n line : Nat} {g : Grammar} {finish : List Node → Reading → Outcome → Outcome}
  {first first' whole whole' rest : Outcome} {ns : List Node} {next : Reading}

theorem GoesOn.faults_prefix (keeps : ∀ ns next o, (finish ns next o).reading = o.reading)
    (goesOn : GoesOn n g line finish first whole) :
    first.reading.faults <+: whole.reading.faults := by
  cases first with
  | nodes ns next =>
      obtain ⟨rest, reads, rfl⟩ := goesOn
      rw [keeps]
      exact reads.faults_prefix
  | broken fault next =>
      cases goesOn
      exact List.prefix_refl _

/-- What goes on after a success follows what goes on under a larger limit. -/
theorem Follows.goesOn (keeps : ∀ ns next o, (finish ns next o).reading = o.reading)
    (step : (Outcome.nodes ns next).Follows m first') (reads : Reads m g line next rest)
    (goesOn : GoesOn n g line finish first' whole')
    (later : ∀ {rest'}, Reads n g line next rest' → ¬ next.Full m → rest.Follows m rest') :
    (finish ns next rest).Follows m whole' := by
  by_cases full : next.Full m
  · refine step.of_full full ?_ (goesOn.faults_prefix keeps)
    rw [keeps]
    exact reads.faults_of_full full
  · cases step.eq_of_not_full full
    obtain ⟨rest', reads', rfl⟩ := goesOn
    exact (later reads' full).map (keeps ns next)

/-- A fault that nothing goes on after follows what there is under a larger limit. -/
theorem Follows.stays (keeps : ∀ ns next o, (finish ns next o).reading = o.reading) {fault : Fault}
    (step : (Outcome.broken fault next).Follows m first')
    (goesOn : GoesOn n g line finish first' whole') :
    (Outcome.broken fault next).Follows m whole' := by
  by_cases full : next.Full m
  · exact step.of_full full rfl (goesOn.faults_prefix keeps)
  · cases step.eq_of_not_full full
    cases goesOn
    exact step

end Outcome

namespace Reads

variable {m n line : Nat} {g : Grammar} {r : Reading} {o o' : Outcome}

theorem of_seq {first second : Grammar} (reads : Reads n (.seq first second) line r o) :
    ∃ one, Reads n first line r one ∧
      Outcome.GoesOn n second line (fun ns _ rest => rest.after ns) one o := by
  cases reads with
  | seq one two => exact ⟨_, one, _, two, rfl⟩
  | seqBroken one => exact ⟨_, one, rfl⟩

theorem of_many {look : Look} {item : Grammar} (reads : Reads n (.many look item) line r o)
    (holds : look.holds line r.cursor = true) :
    ∃ one, Reads n item line r one ∧
      Outcome.GoesOn n (.many look item) line (fun ns _ rest => rest.after ns) one o := by
  cases reads with
  | stop fails =>
      rw [holds] at fails
      cases fails
  | more _ one rest => exact ⟨_, one, _, rest, rfl⟩
  | moreBroken _ one => exact ⟨_, one, rfl⟩

theorem of_seq_nodes {first second : Grammar} {ns : List Node} {last : Reading}
    (reads : Reads n (.seq first second) line r (.nodes ns last)) :
    ∃ front next, Reads n first line r (.nodes front next) ∧
      ∃ back, Reads n second line next (.nodes back last) ∧ ns = front ++ back := by
  obtain ⟨one, readsOne, goesOn⟩ := reads.of_seq
  cases one with
  | nodes front next =>
      obtain ⟨rest, readsRest, equal⟩ := goesOn
      obtain ⟨back, rfl, rfl⟩ := Outcome.after_eq_nodes equal.symm
      exact ⟨front, next, readsOne, back, readsRest, rfl⟩
  | broken fault next => cases goesOn

theorem of_many_nodes {look : Look} {item : Grammar} {ns : List Node} {last : Reading}
    (reads : Reads n (.many look item) line r (.nodes ns last))
    (holds : look.holds line r.cursor = true) :
    ∃ front next, Reads n item line r (.nodes front next) ∧
      ∃ back, Reads n (.many look item) line next (.nodes back last) ∧ ns = front ++ back := by
  obtain ⟨one, readsOne, goesOn⟩ := reads.of_many holds
  cases one with
  | nodes front next =>
      obtain ⟨rest, readsRest, equal⟩ := goesOn
      obtain ⟨back, rfl, rfl⟩ := Outcome.after_eq_nodes equal.symm
      exact ⟨front, next, readsOne, back, readsRest, rfl⟩
  | broken fault next => cases goesOn

theorem of_node {lead body : Grammar} {cases : List (Look × Node.Kind)}
    {otherwise : Option Node.Kind} (reads : Reads n (.node lead cases otherwise body) line r o) :
    ∃ one, Reads n lead line r one ∧
      Outcome.GoesOn n body line (Outcome.wrapped line cases otherwise r.cursor) one o := by
  cases reads with
  | node one two => exact ⟨_, one, _, two, rfl⟩
  | leadBroken one => exact ⟨_, one, rfl⟩
  | bodyBroken one two => exact ⟨_, one, _, two, rfl⟩

theorem of_choose {look : Look} {yes no : Grammar}
    (reads : Reads n (.choose look yes no) line r o) :
    Reads n (if look.holds line r.cursor then yes else no) line r o := by
  cases reads with
  | yes holds reads =>
      rw [if_pos holds]
      exact reads
  | no fails reads =>
      rw [if_neg (by simp [fails])]
      exact reads

theorem of_last (reads : Reads n (.last g) line r o) :
    ∃ one, Reads n g line r one ∧ o = one.lastOnly := by
  cases reads with
  | last one => exact ⟨_, one, rfl⟩
  | lastBroken one => exact ⟨_, one, rfl⟩

theorem of_atLeastOne {expected : Expectation} (reads : Reads n (.atLeastOne expected g) line r o) :
    ∃ one, Reads n g line r one ∧ o = one.required expected := by
  cases reads with
  | @atLeastOne _ _ _ _ ns next one some =>
      refine ⟨_, one, ?_⟩
      cases ns with
      | nil => exact absurd rfl some
      | cons n rest => rfl
  | noneFound one => exact ⟨_, one, rfl⟩
  | atLeastOneBroken one => exact ⟨_, one, rfl⟩

theorem of_recovering {how : Recovery} (reads : Reads n (.recovering how g) line r o) :
    ∃ one, Reads n g line r one ∧ o = one.mended n how r.cursor := by
  cases reads with
  | intact one => exact ⟨_, one, rfl⟩
  | recovered one => exact ⟨_, one, rfl⟩

/-- Under a smaller limit a reading follows that under a larger one. -/
theorem follows (fewer : m ≤ n) (one : Reads m g line r o) (other : Reads n g line r o')
    (wanted : ¬ r.Full m) : o.Follows m o' := by
  induction one generalizing o' with
  | done =>
      cases other
      exact Or.inl ⟨rfl, wanted⟩
  | take =>
      cases other
      exact Or.inl ⟨rfl, wanted⟩
  | fail =>
      cases other
      exact Or.inl ⟨rfl, wanted⟩
  | seq _ two ihOne ihTwo =>
      obtain ⟨first, one', goesOn⟩ := other.of_seq
      exact (ihOne one' wanted).goesOn (fun ns _ o => Outcome.reading_after ns o) two goesOn ihTwo
  | seqBroken _ ih =>
      obtain ⟨first, one', goesOn⟩ := other.of_seq
      exact (ih one' wanted).stays (fun ns _ o => Outcome.reading_after ns o) goesOn
  | yes holds _ ih =>
      have reads := other.of_choose
      rw [if_pos holds] at reads
      exact ih reads wanted
  | no fails _ ih =>
      have reads := other.of_choose
      rw [if_neg (by simp [fails])] at reads
      exact ih reads wanted
  | stop fails =>
      cases other with
      | stop => exact Or.inl ⟨rfl, wanted⟩
      | more holds _ _ =>
          rw [fails] at holds
          cases holds
      | moreBroken holds _ =>
          rw [fails] at holds
          cases holds
  | more holds _ rest ihItem ihRest =>
      obtain ⟨first, one', goesOn⟩ := other.of_many holds
      exact (ihItem one' wanted).goesOn (fun ns _ o => Outcome.reading_after ns o) rest goesOn
        ihRest
  | moreBroken holds _ ih =>
      obtain ⟨first, one', goesOn⟩ := other.of_many holds
      exact (ih one' wanted).stays (fun ns _ o => Outcome.reading_after ns o) goesOn
  | node _ readsBody ihLead ihBody =>
      obtain ⟨first, one', goesOn⟩ := other.of_node
      exact (ihLead one' wanted).goesOn (Outcome.reading_wrapped _ _ _ _) readsBody goesOn ihBody
  | leadBroken _ ih =>
      obtain ⟨first, one', goesOn⟩ := other.of_node
      exact (ih one' wanted).stays (Outcome.reading_wrapped _ _ _ _) goesOn
  | bodyBroken _ readsBody ihLead ihBody =>
      obtain ⟨first, one', goesOn⟩ := other.of_node
      exact (ihLead one' wanted).goesOn (Outcome.reading_wrapped _ _ _ _) readsBody goesOn ihBody
  | last _ ih =>
      obtain ⟨inner, one', rfl⟩ := other.of_last
      exact (ih one' wanted).map Outcome.reading_lastOnly
  | lastBroken _ ih =>
      obtain ⟨inner, one', rfl⟩ := other.of_last
      exact (ih one' wanted).map Outcome.reading_lastOnly
  | @atLeastOne expected g line r ns next _ some ih =>
      obtain ⟨inner, one', rfl⟩ := other.of_atLeastOne
      cases ns with
      | nil => exact absurd rfl some
      | cons n rest => exact (ih one' wanted).map (Outcome.reading_required expected)
  | @noneFound expected _ _ _ _ _ ih =>
      obtain ⟨inner, one', rfl⟩ := other.of_atLeastOne
      exact (ih one' wanted).map (Outcome.reading_required expected)
  | @atLeastOneBroken expected _ _ _ _ _ _ ih =>
      obtain ⟨inner, one', rfl⟩ := other.of_atLeastOne
      exact (ih one' wanted).map (Outcome.reading_required expected)
  | markLine _ ih =>
      cases other with
      | markLine reads => exact ih reads wanted
  | @intact how g line r ns next _ ih =>
      obtain ⟨inner, one', rfl⟩ := other.of_recovering
      have step := ih one' wanted
      by_cases full : next.Full m
      · exact step.of_full full rfl (inner.faults_mended n how r.cursor)
      · cases step.eq_of_not_full full
        exact step
  | @recovered how g line r fault next _ ih =>
      obtain ⟨inner, one', rfl⟩ := other.of_recovering
      have step := ih one' wanted
      by_cases full : next.Full m
      · refine step.of_full full ?_ (inner.faults_mended n how r.cursor)
        rw [Reading.recover_eq]
        show (next.record m fault).faults = next.faults
        rw [Reading.record_of_full full]
      · cases step.eq_of_not_full full
        exact Reading.recover_follows fewer how r.cursor fault full
  | call _ ih =>
      cases other with
      | call reads => exact ih reads wanted

end Reads

/-! ## Constructs that break with their parts -/

/-- Whether a construct breaks itself if the last wanted fault is recorded in it: what follows a
place where that can happen needs a token, and there is none left. -/
def Grammar.closed : Grammar → Bool
  | .done => true
  | .take => true
  | .fail _ => true
  | .seq first second => (first.closed || second.progresses false) && second.closed
  | .choose _ yes no => yes.closed && no.closed
  | .many _ item => item.closed
  | .node lead _ _ body => (lead.closed || body.progresses false) && body.closed
  | .last g => g.closed
  | .atLeastOne _ g => g.closed
  | .markLine g => g.closed
  | .recovering _ _ => false
  | .call _ => true

theorem Rule.grammar_closed (rule : Rule) : rule.grammar.closed = true := by
  cases rule with
  | value => decide
  | argument => decide
  | field => decide
  | ruleItem => decide

namespace Reads

variable {limit line : Nat} {g : Grammar} {r next : Reading} {ns : List Node}

/-- A construct that needs a token does not succeed at the end. -/
theorem not_atEnd (reads : Reads limit g line r (.nodes ns next))
    (ended : Token.Ended r.cursor.ahead) (progresses : g.progresses false = true) :
    r.cursor.current.kind ≠ .eof := by
  intro atEnd
  have taken := reads.progress ended progresses nofun
  have same : next.cursor = r.cursor := reads.cursor_of_atEnd ended atEnd
  unfold Reading.remaining at taken
  rw [same] at taken
  omega

/-- Where a closed construct succeeds, more faults are still wanted. -/
theorem not_full_of_closed (reads : Reads limit g line r (.nodes ns next))
    (closed : g.closed = true) (ended : Token.Ended r.cursor.ahead) (fewer : ¬ r.Full limit) :
    ¬ next.Full limit := by
  induction reads using Reads.succeeds with
  | done => exact fewer
  | take => exact fewer
  | seq one two ihOne ihTwo =>
      obtain ⟨either, closedTwo⟩ := Bool.and_eq_true_iff.mp closed
      refine ihTwo closedTwo (one.ended ended) ?_
      rcases Bool.or_eq_true_iff.mp either with closedOne | progresses
      · exact ihOne closedOne ended fewer
      · intro full
        exact two.not_atEnd (one.ended ended) progresses (one.atEnd_of_full ended fewer full)
  | yes _ _ ih => exact ih (Bool.and_eq_true_iff.mp closed).1 ended fewer
  | no _ _ ih => exact ih (Bool.and_eq_true_iff.mp closed).2 ended fewer
  | stop => exact fewer
  | more _ one rest ihOne ihRest =>
      exact ihRest closed (one.ended ended) (ihOne closed ended fewer)
  | node readsLead readsBody ihLead ihBody =>
      obtain ⟨either, closedBody⟩ := Bool.and_eq_true_iff.mp closed
      refine ihBody closedBody (readsLead.ended ended) ?_
      rcases Bool.or_eq_true_iff.mp either with closedLead | progresses
      · exact ihLead closedLead ended fewer
      · intro full
        exact readsBody.not_atEnd (readsLead.ended ended) progresses
          (readsLead.atEnd_of_full ended fewer full)
  | last _ ih => exact ih closed ended fewer
  | atLeastOne _ _ ih => exact ih closed ended fewer
  | markLine _ ih => exact ih closed ended fewer
  | intact => cases closed
  | recovered => cases closed
  | @call rule _ _ _ _ _ ih => exact ih rule.grammar_closed ended fewer

end Reads

/-! ## Whole sources -/

/-- Whether a grammar is a row of repetitions of closed constructs, each of which is recovered
from. -/
def Grammar.loops : Grammar → Bool
  | .seq first second => first.loops && second.loops
  | .many look (.recovering _ g) => look.tellsProper true && g.closed
  | _ => false

/-- The nodes under a smaller limit are the first ones of those under a larger limit, and an error
node up to the end. -/
def Node.CutOff (tokens : List Token) (ns ns' : List Node) : Prop :=
  ∃ front rest err, ns = front ++ [err] ∧ ns' = front ++ rest ∧
    err.kind = .error ∧ err.ReachesEnd tokens

namespace Node.CutOff

variable {tokens : List Token} {ns ns' : List Node}

theorem append_left (cutOff : CutOff tokens ns ns') (front : List Node) :
    CutOff tokens (front ++ ns) (front ++ ns') := by
  obtain ⟨inner, rest, err, rfl, rfl, isError, reaches⟩ := cutOff
  exact ⟨front ++ inner, rest, err, by simp, by simp, isError, reaches⟩

theorem append_right (cutOff : CutOff tokens ns ns') (more : List Node) :
    CutOff tokens ns (ns' ++ more) := by
  obtain ⟨front, rest, err, rfl, rfl, isError, reaches⟩ := cutOff
  exact ⟨front, rest ++ more, err, rfl, by simp, isError, reaches⟩

end Node.CutOff

namespace Reads

variable {tokens : List Token} {m n line : Nat} {g : Grammar} {r last last' : Reading}
  {ns ns' : List Node}

/-- Loops read nothing at the end. -/
theorem loops_atEnd (reads : Reads m g line r (.nodes ns last)) (loops : g.loops = true)
    (ended : Token.Ended r.cursor.ahead) (atEnd : r.cursor.current.kind = .eof) : ns = [] := by
  induction reads using Reads.succeeds with
  | @seq first second line r ns next more last one two ihOne ihTwo =>
      obtain ⟨loopsOne, loopsTwo⟩ := Bool.and_eq_true_iff.mp loops
      have same : next.cursor = r.cursor := one.cursor_of_atEnd ended atEnd
      rw [ihOne loopsOne ended atEnd, ihTwo loopsTwo (one.ended ended) (by rw [same]; exact atEnd)]
      rfl
  | stop => rfl
  | @more look item line r ns next more last holds one rest _ _ =>
      cases item with
      | recovering how g =>
          have tells := (Bool.and_eq_true_iff.mp loops).1
          exact absurd atEnd (Look.proper_of_holds ended tells holds)
      | _ => cases loops
  | _ => cases loops

/-- The item in which a reading becomes full leaves an error node up to the end. -/
theorem recovering_of_full {how : Recovery} {next : Reading} (ordered : Token.InOrder 0 tokens)
    (reads : Reads m (.recovering how g) line r (.nodes ns next)) (closed : g.closed = true)
    (on : r.cursor.On tokens) (wanted : ¬ r.Full m) (full : next.Full m) :
    ∃ err, ns = [err] ∧ err.kind = .error ∧ err.ReachesEnd tokens := by
  have ended := on.ended ordered
  have atEnd : next.cursor.current.kind = .eof := reads.atEnd_of_full ended wanted full
  obtain ⟨segment, moves⟩ : ∃ segment, r.cursor.Moves segment next.cursor := reads.moves
  obtain ⟨inner, readsInner, outcome⟩ := reads.of_recovering
  cases inner with
  | nodes ms last =>
      cases outcome
      exact absurd full (readsInner.not_full_of_closed closed ended wanted)
  | broken fault last =>
      rw [Outcome.mended, Reading.recover_eq] at outcome
      cases outcome
      exact ⟨_, rfl, rfl, Node.reachesEnd moves on ordered atEnd⟩

/-- If loops become full under a smaller limit, their nodes are cut off. -/
theorem loops_cutOff (fewer : m ≤ n) (ordered : Token.InOrder 0 tokens)
    (one : Reads m g line r (.nodes ns last)) (other : Reads n g line r (.nodes ns' last'))
    (loops : g.loops = true) (on : r.cursor.On tokens) (wanted : ¬ r.Full m) (full : last.Full m) :
    Node.CutOff tokens ns ns' := by
  have ended := on.ended ordered
  induction one using Reads.succeeds generalizing ns' last' with
  | @seq first second line r ns next more last one two ihOne ihTwo =>
      obtain ⟨loopsOne, loopsTwo⟩ := Bool.and_eq_true_iff.mp loops
      obtain ⟨segment, moves⟩ : ∃ segment, r.cursor.Moves segment next.cursor := one.moves
      obtain ⟨ms, later, one', rest', two', rfl⟩ := other.of_seq_nodes
      by_cases nextFull : next.Full m
      · have nothing := two.loops_atEnd loopsTwo (one.ended ended)
          (one.atEnd_of_full ended wanted nextFull)
        rw [nothing, List.append_nil]
        exact (ihOne one' loopsOne on wanted nextFull ended).append_right rest'
      · cases (one.follows fewer one' wanted).eq_of_not_full nextFull
        exact (ihTwo two' loopsTwo (on.moves moves) nextFull full (one.ended ended)).append_left ns
  | stop => exact absurd full wanted
  | @more look item line r ns next more last holds one rest _ ihRest =>
      obtain ⟨segment, moves⟩ : ∃ segment, r.cursor.Moves segment next.cursor := one.moves
      obtain ⟨ms, later, one', more', rest', rfl⟩ := other.of_many_nodes holds
      by_cases nextFull : next.Full m
      · have nothing := rest.loops_atEnd loops (one.ended ended)
          (one.atEnd_of_full ended wanted nextFull)
        cases item with
        | recovering how g =>
            have closed := (Bool.and_eq_true_iff.mp loops).2
            obtain ⟨err, rfl, isError, reaches⟩ :=
              one.recovering_of_full ordered closed on wanted nextFull
            rw [nothing]
            exact ⟨[], ms ++ more', err, rfl, rfl, isError, reaches⟩
        | _ => cases loops
      · cases (one.follows fewer one' wanted).eq_of_not_full nextFull
        exact (ihRest rest' loops (on.moves moves) nextFull full (one.ended ended)).append_left ns
  | _ => cases loops

end Reads

/-! ## The order of faults -/

/-- The line and the column at which a fault is reported. -/
def Fault.place (f : Fault) : ℕ ×ₗ ℕ := toLex (f.line, f.column)

theorem Cursor.On.place_le {tokens segment : List Token} {first last : Cursor}
    (sorted : tokens.Pairwise fun s t => s.span.place ≤ t.span.place) (on : first.On tokens)
    (moves : first.Moves segment last) : first.current.span.place ≤ last.current.span.place := by
  obtain ⟨front, toFirst⟩ := on
  have whole : tokens = front ++ first.ahead := toFirst.ahead
  rw [whole, List.pairwise_append] at sorted
  cases segment with
  | nil => rw [moves.eq_of_nil]
  | cons t rest =>
      have ahead := moves.ahead
      have later : last.ahead ≠ [] := moves.kept (by simp [ahead])
      have member := List.mem_of_head? (Cursor.head?_ahead later)
      rw [ahead, List.cons_append] at sorted
      rw [moves.current_eq rfl]
      exact (List.pairwise_cons.mp sorted.2.1).1 _ (List.mem_append_right rest member)

/-- The recorded faults are in order, and none is reported behind the current token. -/
structure Reading.Sorted (tokens : List Token) (r : Reading) : Prop where
  on : r.cursor.On tokens
  faults : r.faults.Pairwise fun f f' => f.place ≤ f'.place
  passed : ∀ f ∈ r.faults, f.place ≤ r.cursor.current.span.place

namespace Reading.Sorted

variable {tokens segment : List Token} {r : Reading} {last : Cursor}

theorem moves (sorted : r.Sorted tokens)
    (places : tokens.Pairwise fun s t => s.span.place ≤ t.span.place)
    (moves : r.cursor.Moves segment last) : Reading.Sorted tokens ⟨last, r.faults⟩ := by
  refine ⟨sorted.on.moves moves, sorted.faults, ?_⟩
  intro f member
  exact le_trans (sorted.passed f member) (sorted.on.place_le places moves)

theorem record (sorted : r.Sorted tokens) (limit : Nat) {fault : Fault}
    (found : fault.found = r.cursor.current) : (r.record limit fault).Sorted tokens := by
  unfold Reading.record
  split
  · have here : fault.place = r.cursor.current.span.place := by
      rw [← found]
      rfl
    refine ⟨sorted.on, ?_, ?_⟩
    · refine List.pairwise_append.mpr ⟨sorted.faults, List.pairwise_singleton _ _, ?_⟩
      intro f member f' member'
      rw [List.mem_singleton.mp member', here]
      exact sorted.passed f member
    · intro f member
      rcases List.mem_append.mp member with member | member
      · exact sorted.passed f member
      · rw [List.mem_singleton.mp member]
        exact le_of_eq here
  · exact sorted

end Reading.Sorted

/-- Faults are recorded in the order of the source. -/
theorem Reads.sorted {tokens : List Token} {limit line : Nat} {g : Grammar} {r : Reading}
    {o : Outcome} (reads : Reads limit g line r o) (sorted : r.Sorted tokens)
    (places : tokens.Pairwise fun s t => s.span.place ≤ t.span.place) :
    o.reading.Sorted tokens := by
  suffices kept : r.Sorted tokens → o.reading.Sorted tokens from kept sorted
  refine reads.carries (R := fun first last => first.Sorted tokens → last.Sorted tokens)
    (fun _ => id) (fun one two => two ∘ one) ?_ ?_
  · intro r sorted
    obtain ⟨_, moves⟩ := r.cursor.advance_moves
    exact sorted.moves places moves
  · intro how g line r fault next broken kept sorted
    obtain ⟨_, moves⟩ := next.resumed_moves limit how r.cursor fault
    have noted := (kept sorted).record limit broken.found_eq
    rw [← next.cursor_record limit fault] at moves
    exact noted.moves places moves

/-! ## Whole sources under two limits -/

/-- Whether a grammar starts with what is not recovered from and goes on with loops. -/
def Grammar.startsLoops : Grammar → Bool
  | .seq first second => first.unforgiving && second.loops
  | _ => false

theorem Language.grammar_startsLoops (language : Language) :
    language.grammar.startsLoops = true := by
  cases language with
  | entity => decide
  | flow => decide

/-- If a source becomes full under a smaller limit, its nodes are cut off. -/
theorem Reads.startsLoops_cutOff {tokens : List Token} {m n line : Nat} {g : Grammar}
    {r last last' : Reading} {ns ns' : List Node} (fewer : m ≤ n)
    (ordered : Token.InOrder 0 tokens) (one : Reads m g line r (.nodes ns last))
    (other : Reads n g line r (.nodes ns' last')) (shape : g.startsLoops = true)
    (on : r.cursor.On tokens) (wanted : ¬ r.Full m) (full : last.Full m) :
    Node.CutOff tokens ns ns' := by
  cases g with
  | seq first second =>
      obtain ⟨unforgiving, loops⟩ := Bool.and_eq_true_iff.mp shape
      obtain ⟨front, next, readsOne, back, readsTwo, rfl⟩ := one.of_seq_nodes
      obtain ⟨front', next', readsOne', back', readsTwo', rfl⟩ := other.of_seq_nodes
      obtain ⟨_, moves⟩ : ∃ segment, r.cursor.Moves segment next.cursor := readsOne.moves
      have nextWanted : ¬ next.Full m := by
        intro nextFull
        exact wanted (nextFull.of_faults (readsOne.faults_eq unforgiving).symm)
      cases (readsOne.follows fewer readsOne' wanted).eq_of_not_full nextWanted
      exact (readsTwo.loops_cutOff fewer ordered readsTwo' loops (on.moves moves) nextWanted
        full).append_left front
  | _ => cases shape

/-- A source under two limits: under the smaller one the first ones of the faults are recorded, and
if these are not as many as are wanted the trees are the same. Otherwise the nodes of the tree are
the first ones of the other tree, and an error node up to the end. The faults are in order. -/
theorem Parse.limits (language : Language) {m n : Nat} (fewer : max m 1 ≤ max n 1)
    {source : String} {tokens : List Token} (lexed : Token.lex source = .ok tokens) :
    ∃ p q, Parse.ofSource? language m source = .ok p ∧ Parse.ofSource? language n source = .ok q ∧
      p.faults = q.faults.take (max m 1) ∧ (q.faults.Pairwise fun f f' => f.place ≤ f'.place) ∧
      (p.faults.length < max m 1 → p.tree = q.tree) ∧
      (p.faults.length = max m 1 →
        Node.CutOff tokens p.tree.children q.tree.children) := by
  have ordered := Token.lex_inOrder lexed
  refine ⟨Parse.ofTokens language m tokens, Parse.ofTokens language n tokens,
    Parse.ofSource?_of_lex lexed language m, Parse.ofSource?_of_lex lexed language n, ?_⟩
  obtain ⟨ns, last, reads, _, equal⟩ := Parse.ofTokens_reads language m ordered.ended
  obtain ⟨ns', last', reads', _, equal'⟩ := Parse.ofTokens_reads language n ordered.ended
  have start : ¬ (Reading.mk (Cursor.start tokens) []).Full (max m 1) := by
    show ¬ max m 1 ≤ 0
    omega
  have sortedStart : (Reading.mk (Cursor.start tokens) []).Sorted tokens :=
    ⟨Cursor.on_start tokens, .nil, fun _ member => absurd member List.not_mem_nil⟩
  have sorted := reads'.sorted sortedStart (Token.lex_places lexed)
  have bounded : last.faults.length ≤ max m 1 := reads.length_faults_le (Nat.zero_le _)
  rw [equal, equal']
  rcases reads.follows fewer reads' start with ⟨same, wanted⟩ | ⟨full, earlier⟩
  · cases same
    have wanted : ¬ max m 1 ≤ last.faults.length := wanted
    refine ⟨(List.take_of_length_le bounded).symm, sorted.faults, fun _ => rfl, ?_⟩
    intro all
    exact absurd (Nat.le_of_eq all.symm) wanted
  · have all : last.faults.length = max m 1 := Nat.le_antisymm bounded full
    refine ⟨?_, sorted.faults, ?_, ?_⟩
    · rw [← all]
      exact List.prefix_iff_eq_take.mp earlier
    · intro fewer
      exact absurd all (Nat.ne_of_lt fewer)
    · intro _
      exact reads.startsLoops_cutOff fewer ordered reads' language.grammar_startsLoops
        (Cursor.on_start tokens) start full

/-- An entity with two broken fields, and an enum after it. -/
def Parse.brokenFields : String :=
  "entity A \x7b\n  x 1\n  y String\n  z =\n\x7d\nenum B \x7b C \x7d\n"

/-- Under a limit of one fault the entity is cut off at its first broken field. -/
theorem Parse.limits_brokenFields :
    ∃ tokens p q, Token.lex Parse.brokenFields = .ok tokens ∧
      Parse.ofSource? .entity 1 Parse.brokenFields = .ok p ∧
      Parse.ofSource? .entity 2 Parse.brokenFields = .ok q ∧
      p.faults = q.faults.take 1 ∧ (q.faults.Pairwise fun f f' => f.place ≤ f'.place) ∧
      Node.CutOff tokens p.tree.children q.tree.children := by
  obtain ⟨tokens, lexed⟩ : ∃ tokens, Token.lex Parse.brokenFields = .ok tokens :=
    Token.exists_of_isOk (by decide +kernel)
  obtain ⟨p, q, parsedOne, parsedTwo, first, sorted, _, cutOff⟩ :=
    Parse.limits .entity (m := 1) (n := 2) (by decide) lexed
  have one : p.faults.length = max 1 1 := by
    have computed : ((Parse.ofSource? .entity 1 Parse.brokenFields).toOption.map
        (·.faults.length)) = some 1 := by decide +kernel
    rw [parsedOne] at computed
    exact Option.some.inj computed
  exact ⟨tokens, p, q, lexed, parsedOne, parsedTwo, first, sorted, cutOff one⟩

end EntityFlow
