import EntityFlow.Proofs.Grammar.Intrusion

/-!
# Seams

A row of tokens that is accepted up to its end is accepted in the same way where other tokens follow
it (`Accepts.across`), unless it could go on with them. That no construct looks past its own last
token is a question of where its looks stand:

* **in front of a token** of a known kind, or of enough tokens, a look has one answer whatever
  stands behind them (`Look.kept`, `Accepts.kept`);
* **at the seam** only looks may be left that hold neither of the end token nor of what follows
  (`Look.lapses`).

`Grammar.closing` checks both along the ways in which a grammar can come to the end.
-/

namespace EntityFlow

/-! ## Looks in front of a token -/

namespace Look

/-- Whether a look fails where the token so many places ahead is of a kind. -/
def excludes (n : Nat) (k : Token.Kind) : Look → Bool
  | .kind m k' => m == n && k' != k
  | .word m _ => m == n && k != .word
  | .and a b => a.excludes n k || b.excludes n k
  | .or a b => a.excludes n k && b.excludes n k
  | _ => false

/-- Whether a look has one answer, whatever stands behind the token so many places ahead, if that
token is of a kind. -/
def settled (n : Nat) (k : Token.Kind) : Look → Bool
  | .kind m _ => decide (m ≤ n)
  | .word m _ => decide (m ≤ n)
  | .not a => a.settled n k
  | .and a b => a.settled n k && b.settled n k || (a.excludes n k || b.excludes n k)
  | .or a b => a.settled n k && b.settled n k
  | .adjacent | .sameLine | .onLine | .capitals => true

/-- Whether a look has one answer in front of so many tokens at least, of which the first one is of
the given kind if there is one. -/
def kept (least : Nat) (head : Option Token.Kind) (look : Look) : Bool :=
  decide (look.reach ≤ least) ||
    head.any fun k => (List.range look.reach).all (look.settled · k)

variable {front rest rest' : List Token} {c c' : Cursor} {line n : Nat} {k : Token.Kind}
  {look : Look}

theorem holds_eq_false_of_excludes (isKind : (c.nth n).kind = k)
    (excludes : look.excludes n k = true) : look.holds line c = false := by
  induction look with
  | kind m k' =>
      obtain ⟨same, other⟩ := Bool.and_eq_true_iff.mp excludes
      unfold Look.holds
      rw [beq_iff_eq.mp same, isKind]
      exact beq_false_of_ne (bne_iff_ne.mp other).symm
  | word m ws =>
      obtain ⟨same, other⟩ := Bool.and_eq_true_iff.mp excludes
      unfold Look.holds
      rw [beq_iff_eq.mp same, isKind, beq_false_of_ne (bne_iff_ne.mp other)]
      rfl
  | and a b ihA ihB =>
      unfold Look.holds
      rcases Bool.or_eq_true_iff.mp excludes with excludes | excludes
      · rw [ihA excludes, Bool.false_and]
      · rw [ihB excludes, Bool.and_false]
  | or a b ihA ihB =>
      obtain ⟨one, two⟩ := Bool.and_eq_true_iff.mp excludes
      unfold Look.holds
      rw [ihA one, ihB two]
      rfl
  | _ => cases excludes

/-- A settled look does not see past the token that settles it. -/
theorem holds_eq_of_settled (forks : Cursor.Forks front rest rest' c c') (within : n < front.length)
    (isKind : (c.nth n).kind = k) (settled : look.settled n k = true) :
    look.holds line c' = look.holds line c := by
  induction look with
  | kind m _ =>
      have inFront : m ≤ n := of_decide_eq_true settled
      unfold Look.holds
      rw [forks.nth_eq (by omega)]
  | word m _ =>
      have inFront : m ≤ n := of_decide_eq_true settled
      unfold Look.holds
      rw [forks.nth_eq (by omega)]
  | not a ih =>
      unfold Look.holds
      rw [ih settled]
  | and a b ihA ihB =>
      have isKind' : (c'.nth n).kind = k := by rw [forks.nth_eq within, isKind]
      unfold Look.holds
      rcases Bool.or_eq_true_iff.mp settled with both | either
      · obtain ⟨one, two⟩ := Bool.and_eq_true_iff.mp both
        rw [ihA one, ihB two]
      · rcases Bool.or_eq_true_iff.mp either with one | two
        · rw [holds_eq_false_of_excludes isKind one, holds_eq_false_of_excludes isKind' one,
            Bool.false_and, Bool.false_and]
        · rw [holds_eq_false_of_excludes isKind two, holds_eq_false_of_excludes isKind' two,
            Bool.and_false, Bool.and_false]
  | or a b ihA ihB =>
      obtain ⟨one, two⟩ := Bool.and_eq_true_iff.mp settled
      unfold Look.holds
      rw [ihA one, ihB two]
  | _ => exact holds_eq_of_reach forks (Nat.one_le_of_lt within)

end Look

/-! ## What grammars look at -/

namespace Grammar

/-- The looks of a grammar; `called` are those of the constructs that contain themselves. -/
def looks (called : List Look) : Grammar → List Look
  | .done | .take | .fail _ => []
  | .seq first second => first.looks called ++ second.looks called
  | .choose look yes no => look :: (yes.looks called ++ no.looks called)
  | .many look item => look :: item.looks called
  | .node lead cases _ body => cases.map (·.1) ++ (lead.looks called ++ body.looks called)
  | .last g => g.looks called
  | .atLeastOne _ g => g.looks called
  | .markLine g => g.looks called
  | .recovering _ g => g.looks called
  | .call _ => called

/-- How many tokens a grammar takes at least, also where it comes to the end; `proper` tells that it
starts in front of a proper token. What always breaks counts as more than any look sees. -/
def count : Grammar → Bool → Nat
  | .done, _ => 0
  | .take, proper => if proper then 1 else 0
  | .fail _, _ => Look.horizon
  | .seq first second, proper => first.count proper + second.count (proper && first.idle)
  | .choose look yes no, proper =>
      min (yes.count (proper || look.tellsProper true))
        (no.count (proper || look.tellsProper false))
  | .many _ _, _ => 0
  | .node lead _ _ body, proper => lead.count proper + body.count (proper && lead.idle)
  | .last g, proper => g.count proper
  | .atLeastOne _ g, proper => g.count proper
  | .markLine g, proper => g.count proper
  | .recovering _ g, proper => g.count proper
  | .call rule, _ => if rule.progresses then 1 else 0

/-- The kind of the first token of whatever a grammar accepts, if the grammar tells it. -/
def head : Grammar → Option Token.Kind
  | .seq first second => if first.idle then second.head else first.head
  | .choose look _ (.fail _) => look.tells 0
  | _ => none

end Grammar

/-- The looks of the constructs that contain themselves. -/
def Rule.looks : List Look :=
  [Rule.value, .argument, .field, .ruleItem].flatMap (·.grammar.looks [])

theorem Grammar.mem_looks {g : Grammar} {called : List Look} {look : Look}
    (member : look ∈ g.looks called) : look ∈ g.looks [] ∨ look ∈ called := by
  induction g with
  | call rule => exact Or.inr member
  | seq first second ihFirst ihSecond =>
      simp only [looks, List.mem_append] at member ⊢
      tauto
  | choose _ yes no ihYes ihNo =>
      simp only [looks, List.mem_cons, List.mem_append] at member ⊢
      tauto
  | many _ item ih =>
      simp only [looks, List.mem_cons] at member ⊢
      tauto
  | node lead cases _ body ihLead ihBody =>
      simp only [looks, List.mem_append] at member ⊢
      tauto
  | last g ih => exact ih member
  | atLeastOne _ g ih => exact ih member
  | markLine g ih => exact ih member
  | recovering _ g ih => exact ih member
  | _ => exact Or.inl member

theorem Rule.looks_subset (rule : Rule) : rule.grammar.looks Rule.looks ⊆ Rule.looks := by
  intro look member
  rcases Grammar.mem_looks member with own | called
  · refine List.mem_flatMap.mpr ⟨rule, ?_, own⟩
    cases rule <;> decide
  · exact called

namespace Accepts

variable {g : Grammar} {line : Nat} {c d : Cursor} {ns : List Node}

theorem count_le {proper : Bool} (accepts : Accepts g line c ns d) (ended : Token.Ended c.ahead)
    (isProper : proper = true → c.Proper) : d.remaining + g.count proper ≤ c.remaining := by
  induction accepts generalizing proper with
  | done => exact Nat.le_refl _
  | take =>
      unfold Grammar.count
      split
      · rename_i known
        have step := (Cursor.advance_moves_current ended (isProper known)).remaining
        rw [List.length_singleton] at step
        omega
      · obtain ⟨_, moves⟩ := Cursor.advance_moves _
        exact moves.remaining_le
  | @seq _ _ _ _ _ _ _ _ one _ ihOne ihTwo =>
      have front := ihOne ended isProper
      have back := ihTwo (one.ended ended) ((one.reads 1 []).proper_after isProper)
      unfold Grammar.count
      omega
  | @yes _ _ _ line c _ _ holds reads ih =>
      have taken := ih ended (Reads.proper_or (r := ⟨c, []⟩) ended isProper holds)
      unfold Grammar.count
      omega
  | @no _ _ _ line c _ _ fails reads ih =>
      have taken := ih ended (Reads.proper_or (r := ⟨c, []⟩) ended isProper fails)
      unfold Grammar.count
      omega
  | stop => exact Nat.le_refl _
  | more _ one rest => exact Nat.le_trans rest.remaining_le one.remaining_le
  | node readsLead _ ihLead ihBody =>
      have front := ihLead ended isProper
      have back := ihBody (readsLead.ended ended) ((readsLead.reads 1 []).proper_after isProper)
      unfold Grammar.count
      omega
  | last _ ih => exact ih ended isProper
  | atLeastOne _ _ ih => exact ih ended isProper
  | markLine _ ih => exact ih ended isProper
  | intact _ ih => exact ih ended isProper
  | @call rule _ c _ _ inner ih =>
      have below := inner.remaining_le
      unfold Grammar.count
      split
      · rename_i progresses
        have taken := (inner.reads 1 []).progress ended (rule.grammar_progresses progresses) nofun
        exact taken
      · omega

theorem shows_head (accepts : Accepts g line c ns d) : c.Shows g.head := by
  induction accepts with
  | seq one _ ihOne ihTwo =>
      unfold Grammar.head
      split
      · rename_i idle
        rw [one.idle_eq idle] at ihTwo
        exact ihTwo
      · exact ihOne
  | @yes look yes no _ _ _ _ holds =>
      cases no with
      | fail _ => exact Look.shows_tells holds
      | _ => exact Cursor.shows_none _
  | @no look yes no _ _ _ _ _ reads =>
      cases no with
      | fail _ => cases reads
      | _ => exact Cursor.shows_none _
  | _ => exact Cursor.shows_none _

/-- What breaks at the end token is accepted in front of proper tokens only. -/
theorem proper_of_rejects (accepts : Accepts g line c ns d) (rejects : g.rejects .eof = true) :
    c.Proper := by
  intro atEnd
  have shows : c.Shows (some .eof) := by
    rintro _ ⟨⟩
    exact atEnd
  obtain ⟨_, broken⟩ := g.rejects_reads 1 line [] shows rejects
  cases (accepts.reads 1 []).unique broken

end Accepts

/-! ## Seams -/

/-- A place at which a row of tokens ends or goes on: in one row with the end token, in the other
with tokens of which the first is no open brace and does not touch the token in front. -/
structure Seam where
  /-- The token in front. -/
  tail : Option Token
  /-- The end token. -/
  last : Token
  /-- What follows in the other row. -/
  rest : List Token
  ends : last.kind = .eof
  onward : ∃ t later, rest = t :: later ∧ t.kind ≠ .lBrace ∧ Token.touches tail t = false

namespace Seam

/-- Two places with the same tokens up to the seam. -/
structure At (S : Seam) (front : List Token) (c c' : Cursor) : Prop where
  forks : Cursor.Forks front [S.last] S.rest c c'
  tail : front.getLast?.or c.before = S.tail
  ended : Token.Ended c.ahead

variable {S : Seam} {front later segment : List Token} {c c' d d' e : Cursor} {line : Nat}
  {look : Look}

namespace At

theorem remaining (place : S.At front c c') : c.remaining = front.length + 1 :=
  place.forks.remaining

/-- What comes to the seam comes to it with no token left. -/
theorem front_eq_nil (place : S.At front c c') (atSeam : c.remaining = 1) : front = [] := by
  have count := place.remaining
  exact List.length_eq_zero_iff.mp (by omega)

/-- Every place up to the seam has a counterpart. -/
theorem exists_at (place : S.At front c c') (moves : c.Moves segment d) :
    ∃ later d', front = segment ++ later ∧ S.At later d d' := by
  have ended := (moves.ended place.ended).2
  have some : [S.last].length ≤ d.remaining := List.length_pos_iff.mpr ended.ne_nil
  obtain ⟨later, d', split, next⟩ := place.forks.exists_of_moves moves some
  refine ⟨later, d', split, next, ?_, ended⟩
  rw [← place.tail, split, moves.before, List.getLast?_append, Option.or_assoc]

theorem moves (place : S.At front c c') (next : S.At later d d') (moves : c.Moves segment d) :
    front = segment ++ later ∧ c'.Moves segment d' := by
  refine place.forks.moves next.forks ?_ moves
  obtain ⟨t, more, rest, _⟩ := S.onward
  rw [rest]
  exact List.cons_ne_nil _ _

/-- The place after the current token. -/
theorem advance (place : S.At front c c') (proper : c.Proper) :
    ∃ later, S.At later c.advance c'.advance ∧ front.length = later.length + 1 := by
  have step := Cursor.advance_moves_current place.ended proper
  obtain ⟨later, d', split, next⟩ := place.exists_at step
  have step' := (place.moves next step).2
  refine ⟨later, ?_, ?_⟩
  · rw [step'.advance_eq]
    exact next
  · rw [split]
    simp

theorem nth_end (place : S.At front c c') : (c.nth front.length).kind = .eof := by
  unfold Cursor.nth
  rw [place.forks.ahead, List.getElem?_append_right (Nat.le_refl _), Nat.sub_self]
  exact S.ends

theorem proper_iff (place : S.At front c c') : c.Proper ↔ 0 < front.length := by
  constructor
  · intro proper
    refine Nat.pos_of_ne_zero fun none => proper ?_
    rw [← c.nth_zero, ← none]
    exact place.nth_end
  · intro some atEnd
    have alone := Cursor.ahead_eq_of_eof place.ended atEnd
    have count := place.remaining
    unfold Cursor.remaining at count
    rw [alone, List.length_singleton] at count
    omega

end At

/-- A look has one answer in both rows wherever a place is ahead. -/
def Agrees (S : Seam) (e : Cursor) (look : Look) : Prop :=
  ∀ line front c c', S.At front c c' → (∃ segment, c.Moves segment e) →
    look.holds line c' = look.holds line c

theorem agrees_of_kept {least : Nat} {head : Option Token.Kind} (kept : look.kept least head = true)
    (inFront : 1 < e.remaining) (long : least < e.remaining) (shows : e.Shows head) :
    S.Agrees e look := by
  rintro line front c c' place ⟨segment, moves⟩
  obtain ⟨later, e', split, next⟩ := place.exists_at moves
  have behind := next.remaining
  have whole : front.length = segment.length + later.length := by rw [split, List.length_append]
  rcases Bool.or_eq_true_iff.mp kept with short | headed
  · have short : look.reach ≤ least := of_decide_eq_true short
    exact Look.holds_eq_of_reach place.forks (by omega)
  · cases head with
    | none => cases headed
    | some k =>
        by_cases short : look.reach ≤ segment.length
        · exact Look.holds_eq_of_reach place.forks (by omega)
        · have settled : look.settled segment.length k = true :=
            List.all_eq_true.mp headed _ (List.mem_range.mpr (by omega))
          have isKind : (c.nth segment.length).kind = k := by
            rw [moves.nth_length (by omega)]
            exact shows k rfl
          exact Look.holds_eq_of_settled place.forks (by omega) isKind settled

end Seam

/-- **What is accepted in front of a seam is accepted whatever stands behind it.** -/
theorem Accepts.kept {S : Seam} {e : Cursor} {g : Grammar} {line : Nat} {front : List Token}
    {c c' d : Cursor} {ns : List Node} (accepts : Accepts g line c ns d)
    (agrees : ∀ look ∈ g.looks Rule.looks, S.Agrees e look) (place : S.At front c c')
    (toward : ∃ segment, d.Moves segment e) (inFront : 1 < e.remaining) :
    ∃ later d', S.At later d d' ∧ Accepts g line c' ns d' := by
  have onward {g : Grammar} {line : Nat} {c d : Cursor} {ns : List Node}
      (accepts : Accepts g line c ns d) (toward : ∃ segment, d.Moves segment e) :
      ∃ segment, c.Moves segment e := by
    obtain ⟨one, toNext⟩ := accepts.moves
    obtain ⟨two, toLast⟩ := toward
    exact ⟨one ++ two, toNext.trans toLast⟩
  induction accepts generalizing front c' with
  | done => exact ⟨front, c', place, .done⟩
  | @take line c =>
      have proper : c.Proper := by
        obtain ⟨_, forward⟩ := c.advance_moves
        obtain ⟨_, moves⟩ := toward
        have count := place.remaining
        have := forward.remaining_le
        have := moves.remaining_le
        exact place.proper_iff.mpr (by omega)
      obtain ⟨later, next, _⟩ := place.advance proper
      exact ⟨later, _, next, .take⟩
  | seq one two ihOne ihTwo =>
      obtain ⟨_, d', next, one'⟩ := ihOne
        (fun look member => agrees look (List.mem_append_left _ member)) place (onward two toward)
      obtain ⟨last, e', nextLast, two'⟩ := ihTwo
        (fun look member => agrees look (List.mem_append_right _ member)) next toward
      exact ⟨last, e', nextLast, .seq one' two'⟩
  | @yes _ _ _ line _ _ _ holds reads ih =>
      have same := agrees _ List.mem_cons_self line _ _ _ place (onward reads toward)
      obtain ⟨later, d', next, reads'⟩ := ih
        (fun look member => agrees look (by simp [Grammar.looks, member])) place toward
      exact ⟨later, d', next, .yes (same.trans holds) reads'⟩
  | @no _ _ _ line _ _ _ fails reads ih =>
      have same := agrees _ List.mem_cons_self line _ _ _ place (onward reads toward)
      obtain ⟨later, d', next, reads'⟩ := ih
        (fun look member => agrees look (by simp [Grammar.looks, member])) place toward
      exact ⟨later, d', next, .no (same.trans fails) reads'⟩
  | @stop _ _ line _ fails =>
      have same := agrees _ List.mem_cons_self line _ _ _ place toward
      exact ⟨front, c', place, .stop (same.trans fails)⟩
  | @more _ _ line _ _ _ _ _ holds one more ihItem ihRest =>
      have same := agrees _ List.mem_cons_self line _ _ _ place
        (onward one (onward more toward))
      obtain ⟨_, d', next, one'⟩ := ihItem
        (fun look member => agrees look (List.mem_cons_of_mem _ member)) place (onward more toward)
      obtain ⟨last, e', nextLast, more'⟩ := ihRest agrees next toward
      exact ⟨last, e', nextLast, .more (same.trans holds) one' more'⟩
  | @node lead cases otherwise body line c ns d more e' readsLead readsBody ihLead ihBody =>
      obtain ⟨_, d', next, readsLead'⟩ := ihLead
        (fun look member => agrees look (by simp [Grammar.looks, member])) place
        (onward readsBody toward)
      obtain ⟨last, e'', nextLast, readsBody'⟩ := ihBody
        (fun look member => agrees look (by simp [Grammar.looks, member])) next toward
      have picked : Grammar.pick line d' otherwise cases = Grammar.pick line d otherwise cases :=
        Grammar.pick_congr fun look member =>
          agrees look (List.mem_append_left _ member) _ _ _ _ next (onward readsBody toward)
      obtain ⟨one, toNext⟩ := readsLead.moves
      obtain ⟨two, toLast⟩ := readsBody.moves
      have moves := toNext.trans toLast
      have moves' := (place.moves nextLast moves).2
      have some : 0 < last.length := by
        obtain ⟨_, ahead⟩ := toward
        have count := nextLast.remaining
        have := ahead.remaining_le
        omega
      refine ⟨last, e'', nextLast, ?_⟩
      rw [← Node.wrap_congr moves moves' fun _ => nextLast.forks.current_eq some, ← picked]
      exact .node readsLead' readsBody'
  | last _ ih =>
      obtain ⟨later, d', next, reads'⟩ := ih agrees place toward
      exact ⟨later, d', next, .last reads'⟩
  | atLeastOne _ some ih =>
      obtain ⟨later, d', next, reads'⟩ := ih agrees place toward
      exact ⟨later, d', next, .atLeastOne reads' some⟩
  | markLine _ ih =>
      obtain ⟨later, d', next, reads'⟩ := ih agrees place toward
      rw [← place.forks.lineBefore_eq] at reads'
      exact ⟨later, d', next, .markLine reads'⟩
  | intact _ ih =>
      obtain ⟨later, d', next, reads'⟩ := ih agrees place toward
      exact ⟨later, d', next, .intact reads'⟩
  | @call rule _ _ _ _ _ ih =>
      obtain ⟨later, d', next, reads'⟩ := ih
        (fun look member => agrees look (rule.looks_subset member)) place toward
      exact ⟨later, d', next, .call reads'⟩

/-! ## Up to the seam -/

namespace Look

/-- Whether a look fails at a seam in the row that goes on. -/
def misses : Look → Bool
  | .kind 0 k => k == .lBrace
  | .adjacent => true
  | .and a b => a.misses || b.misses
  | _ => false

/-- Whether a look fails at a seam in both rows. -/
def lapses (look : Look) : Bool := look.decides (some .eof) == some false && look.misses

/-- How many tokens are in front of the seam where a look holds, if it tells what every token is
that it sees. -/
def assured (look : Look) : Nat :=
  if (List.range look.reach).all fun n => (look.tells n).any (· != .eof) then look.reach else 0

variable {S : Seam} {front : List Token} {c c' : Cursor} {line : Nat} {look : Look}

theorem holds_eq_false_of_misses (place : S.At [] c c') (misses : look.misses = true) :
    look.holds line c' = false := by
  obtain ⟨t, later, rest, closed, apart⟩ := S.onward
  have current : c'.current = t := by
    unfold Cursor.current
    rw [place.forks.ahead', rest]
    rfl
  induction look with
  | kind n k =>
      cases n with
      | zero =>
          unfold Look.holds
          rw [Cursor.nth_zero, current, beq_iff_eq.mp misses]
          exact beq_false_of_ne closed
      | succ n => cases misses
  | adjacent =>
      show Token.touches c'.before c'.current = false
      have before : c'.before = S.tail := place.forks.before.trans place.tail
      rw [current, before]
      exact apart
  | and a b ihA ihB =>
      unfold Look.holds
      rcases Bool.or_eq_true_iff.mp misses with misses | misses
      · rw [ihA misses, Bool.false_and]
      · rw [ihB misses, Bool.and_false]
  | _ => cases misses

theorem holds_eq_false_of_lapses (place : S.At [] c c') (lapses : look.lapses = true) :
    look.holds line c = false ∧ look.holds line c' = false := by
  obtain ⟨decided, misses⟩ := Bool.and_eq_true_iff.mp lapses
  refine ⟨?_, holds_eq_false_of_misses place misses⟩
  have shows : c.Shows (some .eof) := by
    rintro _ ⟨⟩
    rw [← c.nth_zero]
    exact place.nth_end
  exact holds_of_decides shows (beq_iff_eq.mp decided)

theorem assured_le (place : S.At front c c') (holds : look.holds line c = true) :
    look.assured ≤ front.length := by
  unfold assured
  split
  · rename_i told
    by_contra short
    have proper := List.all_eq_true.mp told front.length (List.mem_range.mpr (by omega))
    obtain ⟨k, tells, other⟩ := (Option.any_eq_true _ _).mp proper
    rw [← kind_of_tells holds tells, place.nth_end] at other
    cases other
  · exact Nat.zero_le _

end Look

/-- Whether a grammar is accepted up to a seam in the same way if it is accepted up to the end and
so many tokens, `sure`, are in front of the seam. -/
def Grammar.closing : Nat → Grammar → Bool
  | _, .done => true
  | sure, .take => decide (1 ≤ sure)
  | _, .fail _ => true
  | sure, .seq first second =>
      (first.looks Rule.looks).all (·.kept (max 1 (second.count false)) second.head) &&
        if second.rejects .eof then second.closing 1
        else first.closing sure && second.closing (if first = .take then sure - 1 else 0)
  | sure, .choose look yes no =>
      (decide (look.reach ≤ max 1 ((choose look yes no).count false)) &&
          (decide (1 ≤ sure) || look.lapses)) &&
        (yes.closing (max sure look.assured) && no.closing sure)
  | _, .many look item =>
      (decide (look.reach ≤ look.assured) && look.lapses) &&
        ((item.looks Rule.looks).all (·.kept 1 none) && item.closing look.assured)
  | _, .node lead cases _ body =>
      body.rejects .eof &&
        ((cases.map (·.1) ++ lead.looks Rule.looks).all
          (·.kept (max 1 (body.count false)) body.head) && body.closing 1)
  | sure, .recovering _ g => g.closing sure
  | _, _ => false

namespace Seam

variable {S : Seam} {front later : List Token} {c c' d d' : Cursor}

/-- How many tokens are still in front of the seam after some were taken. -/
theorem At.sure_le {first : Grammar} {line sure : Nat} {ns : List Node}
    (accepts : Accepts first line c ns d) (place : S.At front c c') (next : S.At later d d')
    (enough : sure ≤ front.length) :
    (if first = .take then sure - 1 else 0) ≤ later.length := by
  split
  · rename_i taken
    rw [taken] at accepts
    cases accepts
    by_cases proper : c.Proper
    · obtain ⟨_, advanced, count⟩ := place.advance proper
      have := advanced.remaining
      have := next.remaining
      omega
    · have := place.proper_iff.not.mp proper
      omega
  · exact Nat.zero_le _

/-- Where a choice comes to the seam, its look has one answer. -/
theorem holds_eq_of_choose {look : Look} {yes no : Grammar} {line sure : Nat} {ns : List Node}
    (accepts : Accepts (.choose look yes no) line c ns d) (place : S.At front c c')
    (enough : sure ≤ front.length)
    (looks : (decide (look.reach ≤ max 1 ((Grammar.choose look yes no).count false)) &&
      (decide (1 ≤ sure) || look.lapses)) = true) :
    look.holds line c' = look.holds line c := by
  obtain ⟨seen, either⟩ := Bool.and_eq_true_iff.mp looks
  have seen : look.reach ≤ _ := of_decide_eq_true seen
  have taken : d.remaining + (Grammar.choose look yes no).count false ≤ c.remaining :=
    accepts.count_le place.ended nofun
  have some := List.length_pos_iff.mpr (accepts.ended place.ended).ne_nil
  have count := place.remaining
  unfold Cursor.remaining at taken count
  by_cases inFront : 1 ≤ front.length
  · exact Look.holds_eq_of_reach place.forks (by omega)
  · obtain rfl : front = [] := List.length_eq_zero_iff.mp (by omega)
    have lapses : look.lapses = true := by
      refine (Bool.or_eq_true_iff.mp either).resolve_left fun sure => ?_
      have := of_decide_eq_true sure
      omega
    have fails : look.holds line c = false ∧ look.holds line c' = false :=
      Look.holds_eq_false_of_lapses place lapses
    rw [fails.1, fails.2]

/-- The looks of a grammar that is followed by another one have one answer. -/
theorem agrees_of_all_kept {second : Grammar} {line : Nat} {ns : List Node} {e : Cursor}
    {proper : Bool} {looks : List Look} (accepts : Accepts second line d ns e)
    (ended : Token.Ended d.ahead) (isProper : proper = true → d.Proper) (inFront : 1 < d.remaining)
    (kept : looks.all (·.kept (max 1 (second.count proper)) second.head) = true) :
    ∀ look ∈ looks, S.Agrees d look := by
  intro look member
  have taken := accepts.count_le ended isProper
  have some := List.length_pos_iff.mpr (accepts.ended ended).ne_nil
  refine agrees_of_kept (List.all_eq_true.mp kept look member) inFront ?_ accepts.shows_head
  unfold Cursor.remaining at *
  omega

end Seam

namespace Accepts

variable {S : Seam} {front later : List Token} {c c' d d' e : Cursor} {line : Nat}
  {ns more : List Node}

/-- A part is accepted in the same way in both rows: in front of the seam by what it looks at, at
the seam by what is known of it there. -/
theorem crosses {part : Grammar} (accepts : Accepts part line c ns d) (place : S.At front c c')
    (inFront : 1 < d.remaining → ∀ look ∈ part.looks Rule.looks, S.Agrees d look)
    (atSeam : d.remaining = 1 → ∃ d', S.At [] d d' ∧ Accepts part line c' ns d') :
    ∃ later d', S.At later d d' ∧ Accepts part line c' ns d' := by
  by_cases ahead : 1 < d.remaining
  · exact accepts.kept (inFront ahead) place ⟨[], .refl d⟩ ahead
  · obtain ⟨_, moves⟩ := accepts.moves
    obtain ⟨_, _, _, next⟩ := place.exists_at moves
    have count := next.remaining
    obtain ⟨d', next, accepts'⟩ := atSeam (by omega)
    exact ⟨[], d', next, accepts'⟩

/-- The first of two parts is accepted in the same way in both rows, and the second one is checked
for as many tokens as are left in front of the seam. -/
theorem crosses_first {first second : Grammar} {sure : Nat} (one : Accepts first line c ns d)
    (two : Accepts second line d more e) (place : S.At front c c') (enough : sure ≤ front.length)
    (closing : (Grammar.seq first second).closing sure = true)
    (atSeam : first.closing sure = true → d.remaining = 1 →
      ∃ d', S.At [] d d' ∧ Accepts first line c' ns d') :
    ∃ later d' left, S.At later d d' ∧ Accepts first line c' ns d' ∧ left ≤ later.length ∧
      second.closing left = true := by
  obtain ⟨looks, others⟩ := Bool.and_eq_true_iff.mp closing
  have inFront : 1 < d.remaining → ∀ look ∈ first.looks Rule.looks, S.Agrees d look :=
    fun ahead => Seam.agrees_of_all_kept two (one.ended place.ended) (by simp) ahead looks
  split at others
  · rename_i rejects
    have proper := two.proper_of_rejects rejects
    obtain ⟨later, d', next, one'⟩ := one.crosses place inFront fun last => by
      obtain ⟨_, moves⟩ := one.moves
      obtain ⟨_, _, _, next⟩ := place.exists_at moves
      have := next.proper_iff.mp proper
      have := next.remaining
      omega
    exact ⟨later, d', 1, next, one', next.proper_iff.mp proper, others⟩
  · obtain ⟨closingOne, closingTwo⟩ := Bool.and_eq_true_iff.mp others
    obtain ⟨later, d', next, one'⟩ := one.crosses place inFront (atSeam closingOne)
    exact ⟨later, d', _, next, one', Seam.At.sure_le one place next enough, closingTwo⟩

/-- A node is accepted in the same way in both rows if what is in it is. -/
theorem crosses_node {lead body : Grammar} {cases : List (Look × Node.Kind)}
    {otherwise : Option Node.Kind} {sure : Nat} (readsLead : Accepts lead line c ns d)
    (readsBody : Accepts body line d more e) (place : S.At front c c')
    (closing : (Grammar.node lead cases otherwise body).closing sure = true)
    (across : ∀ {later d'}, S.At later d d' → 1 ≤ later.length →
      ∃ e', S.At [] e e' ∧ Accepts body line d' more e') :
    ∃ e', S.At [] e e' ∧ Accepts (.node lead cases otherwise body) line c'
      (Node.wrap (Grammar.pick line d otherwise cases) c e (ns ++ more)) e' := by
  obtain ⟨rejects, both⟩ := Bool.and_eq_true_iff.mp closing
  obtain ⟨looks, _⟩ := Bool.and_eq_true_iff.mp both
  obtain ⟨one, toNext⟩ := readsLead.moves
  obtain ⟨later, _, _, next⟩ := place.exists_at toNext
  have some := next.proper_iff.mp (readsBody.proper_of_rejects rejects)
  have count := next.remaining
  have agrees : ∀ look ∈ cases.map (·.1) ++ lead.looks Rule.looks, S.Agrees d look :=
    Seam.agrees_of_all_kept readsBody next.ended (by simp) (by omega) looks
  obtain ⟨_, d', next, readsLead'⟩ := readsLead.kept
    (fun look member => agrees look (List.mem_append_right _ member)) place ⟨[], .refl d⟩
    (by omega)
  have count' := next.remaining
  obtain ⟨e', last, readsBody'⟩ := across next (by omega)
  have picked : Grammar.pick line d' otherwise cases = Grammar.pick line d otherwise cases :=
    Grammar.pick_congr fun look member =>
      agrees look (List.mem_append_left _ member) _ _ _ _ next ⟨[], .refl d⟩
  obtain ⟨two, toLast⟩ := readsBody.moves
  have moves := toNext.trans toLast
  have moves' := (place.moves last moves).2
  -- a node without tokens would point to what follows, which differs in the two rows
  have taken : one ++ two ≠ [] := by
    refine moves.remaining_lt_iff.mp ?_
    have atSeam : e.remaining = 1 := last.remaining
    have := toNext.remaining_le
    omega
  refine ⟨e', last, ?_⟩
  rw [← Node.wrap_congr moves moves' fun nothing => absurd nothing taken, ← picked]
  exact .node readsLead' readsBody'

end Accepts

/-- **What is accepted up to the end is accepted in the same way where the row goes on.** -/
theorem Accepts.across {S : Seam} {g : Grammar} {line sure : Nat} {front : List Token}
    {c c' d : Cursor} {ns : List Node} (accepts : Accepts g line c ns d)
    (closing : g.closing sure = true) (place : S.At front c c') (enough : sure ≤ front.length)
    (atSeam : d.remaining = 1) : ∃ d', S.At [] d d' ∧ Accepts g line c' ns d' := by
  induction accepts generalizing sure front c' with
  | done =>
      obtain rfl := place.front_eq_nil atSeam
      exact ⟨c', place, .done⟩
  | @take line c =>
      have some : 1 ≤ sure := of_decide_eq_true closing
      obtain ⟨later, next, _⟩ := place.advance (place.proper_iff.mpr (by omega))
      obtain rfl := next.front_eq_nil atSeam
      exact ⟨_, next, .take⟩
  | seq one two ihOne ihTwo =>
      obtain ⟨_, d', left, next, one', enough, closingTwo⟩ :=
        one.crosses_first two place enough closing fun closingOne => ihOne closingOne place enough
      obtain ⟨e', last, two'⟩ := ihTwo closingTwo next enough atSeam
      exact ⟨e', last, .seq one' two'⟩
  | @yes look yes no line c ns d holds reads ih =>
      obtain ⟨looks, both⟩ := Bool.and_eq_true_iff.mp closing
      have known := Look.assured_le place holds
      obtain ⟨d', next, reads'⟩ := ih (Bool.and_eq_true_iff.mp both).1 place (by omega) atSeam
      have same := Seam.holds_eq_of_choose (.yes holds reads) place enough looks
      exact ⟨d', next, .yes (same.trans holds) reads'⟩
  | @no look yes no line c ns d fails reads ih =>
      obtain ⟨looks, both⟩ := Bool.and_eq_true_iff.mp closing
      obtain ⟨d', next, reads'⟩ := ih (Bool.and_eq_true_iff.mp both).2 place enough atSeam
      have same := Seam.holds_eq_of_choose (.no fails reads) place enough looks
      exact ⟨d', next, .no (same.trans fails) reads'⟩
  | stop fails =>
      obtain ⟨looks, _⟩ := Bool.and_eq_true_iff.mp closing
      obtain ⟨_, lapses⟩ := Bool.and_eq_true_iff.mp looks
      obtain rfl := place.front_eq_nil atSeam
      exact ⟨c', place, .stop (Look.holds_eq_false_of_lapses place lapses).2⟩
  | @more look item line c ns d more e holds one rest ihItem ihRest =>
      obtain ⟨looks, both⟩ := Bool.and_eq_true_iff.mp closing
      obtain ⟨seen, _⟩ := Bool.and_eq_true_iff.mp looks
      obtain ⟨kept, closingItem⟩ := Bool.and_eq_true_iff.mp both
      have known := Look.assured_le place holds
      have holds' : look.holds line c' = true :=
        (Look.holds_eq_of_reach place.forks
          (Nat.le_trans (of_decide_eq_true seen) known)).trans holds
      have inFront (ahead : 1 < d.remaining) : ∀ look ∈ item.looks Rule.looks, S.Agrees d look :=
        fun look member =>
          Seam.agrees_of_kept (List.all_eq_true.mp kept look member) ahead ahead d.shows_none
      obtain ⟨_, d', next, one'⟩ :=
        one.crosses place inFront fun last => ihItem closingItem place known last
      obtain ⟨e', last, rest'⟩ := @ihRest 0 _ _ closing next (Nat.zero_le _) atSeam
      exact ⟨e', last, .more holds' one' rest'⟩
  | node readsLead readsBody _ ihBody =>
      obtain ⟨_, both⟩ := Bool.and_eq_true_iff.mp closing
      obtain ⟨_, closingBody⟩ := Bool.and_eq_true_iff.mp both
      exact readsLead.crosses_node readsBody place closing fun next some =>
        ihBody closingBody next some atSeam
  | intact _ ih =>
      obtain ⟨d', next, reads'⟩ := ih closing place enough atSeam
      exact ⟨d', next, .intact reads'⟩
  | _ => cases closing

/-! ## Items up to the seam -/

theorem Outcome.after_nil (o : Outcome) : o.after [] = o := by
  cases o <;> rfl

theorem Outcome.after_append (ns more : List Node) (o : Outcome) :
    o.after (ns ++ more) = (o.after more).after ns := by
  cases o with
  | nodes tail r => simp only [Outcome.after, List.append_assoc]
  | broken fault r => rfl

theorem Grammar.seesMore_iff {line : Nat} {c : Cursor} :
    Grammar.seesMore.holds line c = true ↔ c.Proper := by
  simp [Look.holds, Grammar.seesMore, Grammar.sees, Cursor.Proper]

/-- Whether an item is read in the same way in front of other items. -/
def Grammar.chains (item : Grammar) : Bool :=
  (item.looks Rule.looks).all (·.kept (max 1 (item.count true)) item.head) && item.closing 1

/-- **Items up to a seam are read in the same way where more of them may follow.** -/
theorem Accepts.across_many {S : Seam} {item : Grammar} {line : Nat} {front : List Token}
    {c c' d : Cursor} {ns : List Node} (accepts : Accepts (.many Grammar.seesMore item) line c ns d)
    (chains : item.chains = true) (place : S.At front c c') (atSeam : d.remaining = 1) :
    ∃ d', S.At [] d d' ∧ ∀ {limit faults o},
      Reads limit (.many Grammar.seesMore item) line ⟨d', faults⟩ o →
      Reads limit (.many Grammar.seesMore item) line ⟨c', faults⟩ (o.after ns) := by
  obtain ⟨looks, closing⟩ := Bool.and_eq_true_iff.mp chains
  generalize shape : Grammar.many Grammar.seesMore item = g at accepts
  induction accepts generalizing front c' with
  | stop _ =>
      cases shape
      obtain rfl := place.front_eq_nil atSeam
      refine ⟨c', place, fun reads => ?_⟩
      rw [Outcome.after_nil]
      exact reads
  | @more _ _ line c ns d more e holds one rest _ ihRest =>
      cases shape
      have some := place.proper_iff.mp (Grammar.seesMore_iff.mp holds)
      have same : Grammar.seesMore.holds line c' = Grammar.seesMore.holds line c :=
        Look.holds_eq_of_reach place.forks some
      obtain ⟨_, toNext⟩ := one.moves
      obtain ⟨_, _, _, next⟩ := place.exists_at toNext
      have count := next.remaining
      -- the item comes to the seam, or another item follows it
      have inFront (ahead : 1 < d.remaining) : ∀ look ∈ item.looks Rule.looks, S.Agrees d look := by
        cases rest with
        | stop _ => omega
        | more holdsNext two _ =>
            have proper := Grammar.seesMore_iff.mp holdsNext
            exact Seam.agrees_of_all_kept two (one.ended place.ended) (fun _ => proper) ahead looks
      obtain ⟨_, d', next, one'⟩ :=
        one.crosses place inFront fun last => one.across closing place some last
      obtain ⟨e', last, onward⟩ := ihRest next atSeam rfl
      refine ⟨e', last, fun reads => ?_⟩
      rw [Outcome.after_append]
      exact .more (same.trans holds) (one'.reads _ _) (onward reads)
  | _ => cases shape

end EntityFlow
