import EntityFlow.Proofs.Grammar.Derivation

/-!
# Progress

The reader bounds every repetition by the number of tokens ahead and enters a construct that
contains itself only after a token was taken. That neither bound ever cuts a reading short is a
property of the grammars, and it is checked on them as data:

* **looks**: `Look.tellsProper` finds the looks after which a token can be taken;
* **progress**: `Grammar.progresses` finds the grammars that take a token whenever they succeed
  (`Reads.progress`);
* **readiness**: `Grammar.ready` asks that every repeated item makes progress and that every call
  comes after a token was taken.

A ready grammar is read as derived (`Grammar.run_reads`). Both languages are ready, so reading a
source is a derivation that ends at the end token (`Parse.ofTokens_reads`).
-/

namespace EntityFlow

/-- A place in front of a proper token, not of the end token. -/
def Cursor.Proper (c : Cursor) : Prop := c.current.kind ≠ .eof

/-! ## Looks -/

/-- Whether a look with the given outcome tells that the current token is a proper one. Behind the
end token there is only the end token, so a look further ahead tells it, too. -/
def Look.tellsProper : Look → Bool → Bool
  | .kind _ k, true => k != .eof
  | .kind _ k, false => k == .eof
  | .word _ _, outcome => outcome
  | .adjacent, _ => false
  | .sameLine, _ => false
  | .onLine, _ => false
  | .capitals, _ => false
  | .not a, outcome => a.tellsProper (!outcome)
  | .and a b, true => a.tellsProper true || b.tellsProper true
  | .and a b, false => a.tellsProper false && b.tellsProper false
  | .or a b, true => a.tellsProper true && b.tellsProper true
  | .or a b, false => a.tellsProper false || b.tellsProper false

theorem Look.proper_of_holds {look : Look} {outcome : Bool} {line : Nat} {c : Cursor}
    (ended : Token.Ended c.ahead) (tells : look.tellsProper outcome = true)
    (holds : look.holds line c = outcome) : c.Proper := by
  intro atEnd
  -- at the end token all looks ahead see the end token
  have allEnd := Cursor.nth_of_eof ended atEnd
  induction look generalizing outcome with
  | kind n k =>
      rw [Look.holds, allEnd n] at holds
      cases outcome with
      | true =>
          rw [beq_iff_eq] at holds
          rw [← holds] at tells
          exact absurd tells (by simp [Look.tellsProper])
      | false =>
          have isEnd : k = .eof := by simpa [Look.tellsProper] using tells
          rw [isEnd] at holds
          exact absurd holds (by decide)
  | word n ws =>
      rw [Look.holds, allEnd n] at holds
      have isTrue : outcome = true := tells
      rw [isTrue] at holds
      exact absurd holds (by simp)
  | adjacent => exact absurd tells (by simp [Look.tellsProper])
  | sameLine => exact absurd tells (by simp [Look.tellsProper])
  | onLine => exact absurd tells (by simp [Look.tellsProper])
  | capitals => exact absurd tells (by simp [Look.tellsProper])
  | not a ih =>
      refine @ih (!outcome) tells ?_
      rw [← holds, Look.holds, Bool.not_not]
  | and a b ihA ihB =>
      cases outcome with
      | true =>
          simp only [Look.holds, Bool.and_eq_true] at holds
          rcases Bool.or_eq_true_iff.mp tells with tells | tells
          · exact ihA tells holds.1
          · exact ihB tells holds.2
      | false =>
          have both := Bool.and_eq_true_iff.mp tells
          rcases Bool.and_eq_false_iff.mp holds with holds | holds
          · exact ihA both.1 holds
          · exact ihB both.2 holds
  | or a b ihA ihB =>
      cases outcome with
      | true =>
          have both := Bool.and_eq_true_iff.mp tells
          rcases Bool.or_eq_true_iff.mp holds with holds | holds
          · exact ihA both.1 holds
          · exact ihB both.2 holds
      | false =>
          simp only [Look.holds, Bool.or_eq_false_iff] at holds
          rcases Bool.or_eq_true_iff.mp tells with tells | tells
          · exact ihA tells holds.1
          · exact ihB tells holds.2

/-! ## Grammars that take a token -/

/-- The rules that take a token whenever they succeed. An argument may be empty. -/
def Rule.progresses : Rule → Bool
  | .argument => false
  | _ => true

namespace Grammar

/-- Whether a grammar takes nothing and looks at nothing. -/
def idle : Grammar → Bool
  | .done => true
  | _ => false

/-- Whether a grammar takes a token whenever it succeeds; `proper` tells that it starts in front of
a proper token. -/
def progresses : Grammar → Bool → Bool
  | .done, _ => false
  | .take, proper => proper
  | .fail _, _ => true
  | .seq first second, proper => first.progresses proper || second.progresses (proper && first.idle)
  | .choose look yes no, proper =>
      yes.progresses (proper || look.tellsProper true) &&
        no.progresses (proper || look.tellsProper false)
  | .many _ _, _ => false
  | .node lead _ _ body, proper => lead.progresses proper || body.progresses (proper && lead.idle)
  | .last g, proper => g.progresses proper
  | .atLeastOne _ g, proper => g.progresses proper
  | .markLine g, proper => g.progresses proper
  | .recovering _ g, proper => proper && g.progresses proper
  | .call rule, _ => rule.progresses

end Grammar

theorem Rule.grammar_progresses (rule : Rule) (progresses : rule.progresses = true) :
    rule.grammar.progresses false = true := by
  cases rule with
  | argument => cases progresses
  | value => decide
  | field => decide
  | ruleItem => decide

namespace Reads

variable {limit : Nat} {g first : Grammar} {line : Nat} {r next : Reading} {ns : List Node}

/-- An idle grammar leaves the reading where it is. -/
theorem idle_eq (reads : Reads limit g line r (.nodes ns next)) (idle : g.idle = true) :
    next = r := by
  cases g with
  | done =>
      cases reads
      rfl
  | _ => cases idle

/-- After an idle grammar the current token is still a proper one. -/
theorem proper_after {proper : Bool} (reads : Reads limit first line r (.nodes ns next))
    (isProper : proper = true → r.cursor.Proper) :
    (proper && first.idle) = true → next.cursor.Proper := by
  intro still
  have both := Bool.and_eq_true_iff.mp still
  rw [reads.idle_eq both.2]
  exact isProper both.1

/-- What a look that was decided adds to the knowledge of the current token. -/
theorem proper_or {proper outcome : Bool} {look : Look} (ended : Token.Ended r.cursor.ahead)
    (isProper : proper = true → r.cursor.Proper) (holds : look.holds line r.cursor = outcome) :
    (proper || look.tellsProper outcome) = true → r.cursor.Proper := by
  intro either
  rcases Bool.or_eq_true_iff.mp either with known | tells
  · exact isProper known
  · exact Look.proper_of_holds ended tells holds

/-- Two readings in a row take a token where one of them does. -/
theorem remaining_lt_of_either {g₁ g₂ : Grammar} {line₂ : Nat} {last : Reading} {o₁ o₂ : Outcome}
    (one : Reads limit g₁ line r o₁) (two : Reads limit g₂ line₂ o₁.reading o₂)
    (endsAt : o₂.reading = last)
    (either : o₁.reading.remaining < r.remaining ∨ last.remaining < o₁.reading.remaining) :
    last.remaining < r.remaining := by
  have upToNext := one.remaining_le
  have upToLast := two.remaining_le
  rw [endsAt] at upToLast
  omega

/-- A grammar that progresses has taken a token when it succeeds. -/
theorem progress {proper : Bool} (reads : Reads limit g line r (.nodes ns next))
    (ended : Token.Ended r.cursor.ahead) (progresses : g.progresses proper = true)
    (isProper : proper = true → r.cursor.Proper) : next.remaining < r.remaining := by
  induction reads using Reads.succeeds generalizing proper with
  | done => cases progresses
  | take =>
      have step := Cursor.advance_moves_current ended (isProper progresses)
      exact step.remaining_lt_iff.mpr (List.cons_ne_nil _ _)
  | seq one two ihOne ihTwo =>
      refine remaining_lt_of_either one two rfl ?_
      rcases Bool.or_eq_true_iff.mp progresses with progresses | progresses
      · exact Or.inl (ihOne ended progresses isProper)
      · exact Or.inr (ihTwo (one.ended ended) progresses (one.proper_after isProper))
  | yes holds _ ih =>
      have both := Bool.and_eq_true_iff.mp progresses
      exact ih ended both.1 (proper_or ended isProper holds)
  | no fails _ ih =>
      have both := Bool.and_eq_true_iff.mp progresses
      exact ih ended both.2 (proper_or ended isProper fails)
  | stop => cases progresses
  | more => cases progresses
  | node readsLead readsBody ihLead ihBody =>
      refine remaining_lt_of_either readsLead readsBody rfl ?_
      rcases Bool.or_eq_true_iff.mp progresses with progresses | progresses
      · exact Or.inl (ihLead ended progresses isProper)
      · have properNext := readsLead.proper_after isProper
        exact Or.inr (ihBody (readsLead.ended ended) progresses properNext)
  | last _ ih => exact ih ended progresses isProper
  | atLeastOne _ _ ih => exact ih ended progresses isProper
  | markLine _ ih => exact ih ended progresses isProper
  | intact _ ih => exact ih ended (Bool.and_eq_true_iff.mp progresses).2 isProper
  | recovered broken =>
      obtain ⟨_, moves⟩ := broken.moves
      have properFirst := isProper (Bool.and_eq_true_iff.mp progresses).1
      exact Reading.resumed_remaining moves ended properFirst
  | @call rule _ _ _ _ _ ih =>
      exact ih ended (rule.grammar_progresses progresses) nofun

end Reads

/-! ## Ready grammars -/

/-- Whether every repeated item makes progress and every call comes after a token was taken;
`proper` tells that the current token is a proper one and `taken` that one was taken before. -/
def Grammar.ready : Grammar → Bool → Bool → Bool
  | .done, _, _ => true
  | .take, _, _ => true
  | .fail _, _, _ => true
  | .seq first second, proper, taken =>
      first.ready proper taken &&
        second.ready (proper && first.idle) (taken || first.progresses proper)
  | .choose look yes no, proper, taken =>
      yes.ready (proper || look.tellsProper true) taken &&
        no.ready (proper || look.tellsProper false) taken
  | .many look item, _, taken =>
      item.ready (look.tellsProper true) taken && item.progresses (look.tellsProper true)
  | .node lead _ _ body, proper, taken =>
      lead.ready proper taken && body.ready (proper && lead.idle) (taken || lead.progresses proper)
  | .last g, proper, taken => g.ready proper taken
  | .atLeastOne _ g, proper, taken => g.ready proper taken
  | .markLine g, proper, taken => g.ready proper taken
  | .recovering _ g, proper, taken => g.ready proper taken
  | .call _, _, taken => taken

theorem Rule.grammar_ready (rule : Rule) : rule.grammar.ready false false = true := by
  cases rule with
  | value => decide
  | argument => decide
  | field => decide
  | ruleItem => decide

theorem Language.grammar_ready (language : Language) :
    language.grammar.ready false true = true := by
  cases language with
  | entity => decide
  | flow => decide

@[simp] theorem Outcome.bind_nodes (ns : List Node) (r : Reading)
    (next : List Node → Reader) : (Outcome.nodes ns r).bind next = next ns r := rfl

theorem Outcome.bind_append (ns : List Node) (o : Outcome) :
    (o.bind fun more last => .nodes (ns ++ more) last) = o.after ns := by
  cases o <;> rfl

/-- What is known of a reading inside a construct that started with `start` tokens ahead. -/
structure Reading.Within (start : Nat) (proper taken : Bool) (r : Reading) : Prop where
  ended : Token.Ended r.cursor.ahead
  proper : proper = true → r.cursor.Proper
  bound : r.remaining ≤ start
  taken : taken = true → r.remaining < start

namespace Reading.Within

variable {limit start line : Nat} {proper taken : Bool} {r next : Reading}

/-- What is known after a part was read. -/
theorem after {first : Grammar} {ns : List Node} (within : r.Within start proper taken)
    (reads : Reads limit first line r (.nodes ns next)) :
    next.Within start (proper && first.idle) (taken || first.progresses proper) := by
  have forward : next.remaining ≤ r.remaining := reads.remaining_le
  have bound := within.bound
  refine ⟨reads.ended within.ended, reads.proper_after within.proper, by omega, ?_⟩
  intro either
  rcases Bool.or_eq_true_iff.mp either with known | progresses
  · have := within.taken known
    omega
  · have := reads.progress within.ended progresses within.proper
    omega

/-- What is known after a look was decided. -/
theorem look {look : Look} {outcome : Bool} (within : r.Within start proper taken)
    (holds : look.holds line r.cursor = outcome) :
    r.Within start (proper || look.tellsProper outcome) taken :=
  ⟨within.ended, Reads.proper_or within.ended within.proper holds, within.bound, within.taken⟩

theorem forget (within : r.Within start proper taken) : r.Within start false taken :=
  ⟨within.ended, nofun, within.bound, within.taken⟩

end Reading.Within

namespace Grammar

variable {limit start : Nat} {call : Rule → Reader}

/-- A repetition of items that make progress is never cut short. -/
theorem repeatWhile_reads {look : Look} {item : Grammar} {taken : Bool} {line : Nat}
    (progresses : item.progresses (look.tellsProper true) = true)
    (readsItem : ∀ r : Reading, r.Within start (look.tellsProper true) taken →
      Reads limit item line r (item.run limit call line r)) (n : Nat) :
    ∀ r : Reading, r.Within start false taken → r.remaining ≤ n →
      Reads limit (.many look item) line r
        (Reading.repeatWhile (look.holds line ·) (item.run limit call line) n r) := by
  induction n with
  | zero =>
      intro r within bound
      have some := List.length_pos_iff.mpr within.ended.ne_nil
      exact absurd some (Nat.not_lt.mpr bound)
  | succ n ih =>
      intro r within bound
      unfold Reading.repeatWhile
      cases holds : look.holds line r.cursor with
      | false => exact .stop holds
      | true =>
          have inside : r.Within start (look.tellsProper true) taken := within.look holds
          have reads := readsItem r inside
          rw [if_pos rfl]
          cases outcome : item.run limit call line r with
          | broken fault next =>
              rw [outcome] at reads
              exact .moreBroken holds reads
          | nodes ns next =>
              rw [outcome] at reads
              -- the item took a token, so what the bound leaves is enough for the rest
              have fewer : next.remaining < r.remaining :=
                reads.progress within.ended progresses inside.proper
              have later : next.Within start false taken := by
                have forward : next.remaining ≤ r.remaining := reads.remaining_le
                have start := within.bound
                refine ⟨reads.ended within.ended, nofun, by omega, ?_⟩
                intro known
                have := within.taken known
                omega
              have rest := ih next later (by omega)
              rw [Outcome.bind_nodes, Outcome.bind_append]
              exact .more holds reads rest

/-- A ready grammar is read as derived, if the constructs that it calls are. -/
theorem run_reads (calls : ∀ (rule : Rule) (next : Reading), Token.Ended next.cursor.ahead →
      next.remaining < start → Reads limit rule.grammar 0 next (call rule next)) (g : Grammar) :
    ∀ {proper taken : Bool} {line : Nat} {r : Reading}, g.ready proper taken = true →
      r.Within start proper taken → Reads limit g line r (g.run limit call line r) := by
  induction g with
  | done => intro _ _ _ _ _ _; exact .done
  | take => intro _ _ _ _ _ _; exact .take
  | fail => intro _ _ _ _ _ _; exact .fail
  | seq first second ihFirst ihSecond =>
      intro proper taken line r ready within
      have both := Bool.and_eq_true_iff.mp ready
      have readsFirst : Reads limit first line r _ := ihFirst both.1 within
      unfold Grammar.run
      cases outcome : first.run limit call line r with
      | broken fault next =>
          rw [outcome] at readsFirst
          exact .seqBroken readsFirst
      | nodes ns next =>
          rw [outcome] at readsFirst
          rw [Outcome.bind_nodes, Outcome.bind_append]
          exact .seq readsFirst (ihSecond both.2 (within.after readsFirst))
  | choose look yes no ihYes ihNo =>
      intro proper taken line r ready within
      have both := Bool.and_eq_true_iff.mp ready
      unfold Grammar.run
      cases holds : look.holds line r.cursor with
      | true => exact .yes holds (ihYes both.1 (within.look holds))
      | false => exact .no holds (ihNo both.2 (within.look holds))
  | many look item ih =>
      intro proper taken line r ready within
      have both := Bool.and_eq_true_iff.mp ready
      exact repeatWhile_reads both.2 (fun r inside => ih both.1 inside) _ r within.forget
        (Nat.le_refl _)
  | node lead cases otherwise body ihLead ihBody =>
      intro proper taken line r ready within
      have both := Bool.and_eq_true_iff.mp ready
      have readsLead : Reads limit lead line r _ := ihLead both.1 within
      unfold Grammar.run
      cases outcome : lead.run limit call line r with
      | broken fault next =>
          rw [outcome] at readsLead
          exact .leadBroken readsLead
      | nodes ns next =>
          rw [outcome] at readsLead
          have readsBody : Reads limit body line next _ := ihBody both.2 (within.after readsLead)
          cases bodyOutcome : body.run limit call line next with
          | broken fault last =>
              rw [bodyOutcome] at readsBody
              simp only [Outcome.bind, bodyOutcome]
              exact .bodyBroken readsLead readsBody
          | nodes more last =>
              rw [bodyOutcome] at readsBody
              simp only [Outcome.bind, bodyOutcome]
              exact .node readsLead readsBody
  | last g ih =>
      intro proper taken line r ready within
      have reads : Reads limit g line r _ := ih ready within
      unfold Grammar.run
      cases outcome : g.run limit call line r with
      | broken fault next =>
          rw [outcome] at reads
          exact .lastBroken reads
      | nodes ns next =>
          rw [outcome] at reads
          exact .last reads
  | atLeastOne expected g ih =>
      intro proper taken line r ready within
      have reads : Reads limit g line r _ := ih ready within
      unfold Grammar.run
      cases outcome : g.run limit call line r with
      | broken fault next =>
          rw [outcome] at reads
          exact .atLeastOneBroken reads
      | nodes ns next =>
          rw [outcome] at reads
          cases ns with
          | nil => exact .noneFound reads
          | cons n rest => exact .atLeastOne reads (List.cons_ne_nil _ _)
  | markLine g ih =>
      intro proper taken line r ready within
      exact .markLine (ih ready within)
  | recovering how g ih =>
      intro proper taken line r ready within
      have reads : Reads limit g line r _ := ih ready within
      unfold Grammar.run
      cases outcome : g.run limit call line r with
      | broken fault next =>
          rw [outcome] at reads
          exact .recovered reads
      | nodes ns next =>
          rw [outcome] at reads
          exact .intact reads
  | call rule =>
      intro proper taken line r ready within
      exact .call (calls rule r within.ended (within.taken ready))

end Grammar

/-- A construct that contains itself is read as derived. -/
theorem Rule.run_reads (limit : Nat) (rule : Rule) (r : Reading)
    (ended : Token.Ended r.cursor.ahead) :
    Reads limit rule.grammar 0 r (Rule.run Rule.grammar limit rule r) := by
  rw [Rule.run]
  refine @Grammar.run_reads limit r.remaining _ ?_ rule.grammar _ _ _ _ rule.grammar_ready
    ⟨ended, nofun, Nat.le_refl _, nofun⟩
  intro inner next endedNext fewer
  rw [if_pos fewer]
  exact Rule.run_reads limit inner next endedNext
termination_by r.remaining

/-! ## Whole sources -/

namespace Grammar

/-- Whether a grammar never breaks. -/
def steady : Grammar → Bool
  | .done => true
  | .take => true
  | .fail _ => false
  | .seq first second => first.steady && second.steady
  | .choose _ yes no => yes.steady && no.steady
  | .many _ item => item.steady
  | .node lead _ _ body => lead.steady && body.steady
  | .last g => g.steady
  | .atLeastOne _ _ => false
  | .markLine g => g.steady
  | .recovering _ _ => true
  | .call _ => false

/-- Whether a grammar goes on until the end token is reached. -/
def exhaustive : Grammar → Bool
  | .seq _ second => second.exhaustive
  | .many look _ => look == seesMore
  | _ => false

end Grammar

theorem Language.grammar_steady (language : Language) : language.grammar.steady = true := by
  cases language with
  | entity => decide
  | flow => decide

theorem Language.grammar_exhaustive (language : Language) :
    language.grammar.exhaustive = true := by
  cases language with
  | entity => decide
  | flow => decide

namespace Reads

variable {limit : Nat} {g : Grammar} {line : Nat} {r next : Reading}

theorem steady {o : Outcome} (reads : Reads limit g line r o) (steady : g.steady = true) :
    ∃ ns next, o = .nodes ns next := by
  induction reads with
  | done => exact ⟨_, _, rfl⟩
  | take => exact ⟨_, _, rfl⟩
  | fail => cases steady
  | seq _ _ _ ihSecond =>
      obtain ⟨more, last, rfl⟩ := ihSecond (Bool.and_eq_true_iff.mp steady).2
      exact ⟨_, _, rfl⟩
  | seqBroken _ ih =>
      obtain ⟨_, _, equal⟩ := ih (Bool.and_eq_true_iff.mp steady).1
      cases equal
  | yes _ _ ih => exact ih (Bool.and_eq_true_iff.mp steady).1
  | no _ _ ih => exact ih (Bool.and_eq_true_iff.mp steady).2
  | stop => exact ⟨_, _, rfl⟩
  | more _ _ _ _ ihMore =>
      obtain ⟨more, last, rfl⟩ := ihMore steady
      exact ⟨_, _, rfl⟩
  | moreBroken _ _ ih =>
      obtain ⟨_, _, equal⟩ := ih steady
      cases equal
  | node => exact ⟨_, _, rfl⟩
  | leadBroken _ ih =>
      obtain ⟨_, _, equal⟩ := ih (Bool.and_eq_true_iff.mp steady).1
      cases equal
  | bodyBroken _ _ _ ih =>
      obtain ⟨_, _, equal⟩ := ih (Bool.and_eq_true_iff.mp steady).2
      cases equal
  | last => exact ⟨_, _, rfl⟩
  | lastBroken _ ih =>
      obtain ⟨_, _, equal⟩ := ih steady
      cases equal
  | atLeastOne => cases steady
  | noneFound => cases steady
  | atLeastOneBroken => cases steady
  | markLine _ ih => exact ih steady
  | intact => exact ⟨_, _, rfl⟩
  | recovered => exact ⟨_, _, rfl⟩
  | call => cases steady

theorem exhaustive {ns : List Node} (reads : Reads limit g line r (.nodes ns next))
    (exhaustive : g.exhaustive = true) : next.cursor.current.kind = .eof := by
  generalize outcome : Outcome.nodes ns next = o at reads
  induction g generalizing r ns o with
  | seq first second _ ihSecond =>
      cases reads with
      | seq _ readsSecond =>
          obtain ⟨more, equal, _⟩ := Outcome.after_eq_nodes outcome.symm
          exact ihSecond exhaustive _ equal.symm readsSecond
      | seqBroken => cases outcome
  | many look item =>
      rw [← outcome] at reads
      have stopped := reads.many_stops
      rw [beq_iff_eq.mp exhaustive] at stopped
      simpa [Look.holds, Grammar.seesMore, Grammar.sees] using stopped
  | _ => cases exhaustive

end Reads

/-- A source is read as derived, up to its end token. -/
theorem Parse.ofTokens_reads (language : Language) (limit : Nat) {tokens : List Token}
    (ended : Token.Ended tokens) :
    ∃ ns last, Reads (max limit 1) language.grammar 0 ⟨Cursor.start tokens, []⟩ (.nodes ns last) ∧
      last.cursor.current.kind = .eof ∧
      Parse.ofTokens language limit tokens =
        ⟨Node.ofTokens language.rootKind (Cursor.start tokens) last.cursor ns, last.faults⟩ := by
  let start : Reading := ⟨Cursor.start tokens, []⟩
  have within : start.Within (start.remaining + 1) false true :=
    ⟨ended, nofun, Nat.le_succ _, fun _ => Nat.lt_succ_self _⟩
  have reads : Reads (max limit 1) language.grammar 0 start
      (Parse.read (max limit 1) language.grammar start) :=
    Grammar.run_reads (fun rule next endedNext _ => Rule.run_reads _ rule next endedNext)
      language.grammar language.grammar_ready within
  obtain ⟨ns, last, outcome⟩ := reads.steady language.grammar_steady
  rw [outcome] at reads
  refine ⟨ns, last, reads, reads.exhaustive language.grammar_exhaustive, ?_⟩
  show Parse.mk _ _ = _
  rw [outcome]
  rfl

theorem Parse.ofSource?_of_lex {source : String} {tokens : List Token}
    (lexed : Token.lex source = .ok tokens) (language : Language) (limit : Nat) :
    Parse.ofSource? language limit source = .ok (Parse.ofTokens language limit tokens) := by
  unfold Parse.ofSource?
  rw [lexed]
  rfl

/-- A source that was read has tokens. -/
theorem Parse.exists_tokens {language : Language} {given : Nat} {source : String} {p : Parse}
    (parsed : Parse.ofSource? language given source = .ok p) :
    ∃ tokens, Token.lex source = .ok tokens ∧ p = Parse.ofTokens language given tokens := by
  unfold Parse.ofSource? at parsed
  cases lexed : Token.lex source with
  | error fault =>
      rw [lexed] at parsed
      cases parsed
  | ok tokens =>
      rw [lexed] at parsed
      cases parsed
      exact ⟨tokens, rfl, rfl⟩

end EntityFlow
