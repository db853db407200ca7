import EntityFlow.Proofs.Grammar.Acceptance
import EntityFlow.Proofs.Grammar.Forks

/-!
# Foresight

What stands in front of a line that is foreign to both languages is accepted as if that line were
not there (`Accepts.undisturbed`). A grammar sees a few tokens ahead, so this is a question of where
it looks: either a look holds of no foreign token, or what is accepted goes on for as many tokens as
the look sees. `Grammar.undisturbed` checks it for each look of a grammar:

* **looks**: how far a look sees (`Look.reach`) and what it can tell of the current token;
* **lengths**: how many tokens a grammar takes at least (`Accepts.least_le`).
-/

namespace EntityFlow

/-! ## What looks see -/

namespace Look

/-- Whether a look holds only if the token so many places ahead is not a foreign one. -/
def needs (n : Nat) : Look → Bool
  | .kind m k => m == n && k != .unknown
  | .word m _ => m == n
  | .adjacent | .sameLine | .onLine => n == 0
  | .and a b => a.needs n || b.needs n
  | .or a b => a.needs n && b.needs n
  | .not _ | .capitals => false

/-- The kind that the token so many places ahead has where a look holds, if the look tells it. -/
def tells (n : Nat) : Look → Option Token.Kind
  | .kind m k => if m = n then some k else none
  | .word m _ => if m = n then some .word else none
  | .and a b => a.tells n <|> b.tells n
  | _ => none

/-- What a look comes to at a token of a known kind, if the kind tells it. -/
def decides (known : Option Token.Kind) : Look → Option Bool
  | .kind 0 k => known.map (· == k)
  | .word 0 _ => known.bind fun k => if k = .word then none else some false
  | .not a => (a.decides known).map (!·)
  | .and a b =>
      match a.decides known, b.decides known with
      | some true, some true => some true
      | some false, _ => some false
      | _, some false => some false
      | _, _ => none
  | .or a b =>
      match a.decides known, b.decides known with
      | some false, some false => some false
      | some true, _ => some true
      | _, some true => some true
      | _, _ => none
  | _ => none

end Look

/-- The current token is of the known kind, if one is known. -/
def Cursor.Shows (known : Option Token.Kind) (c : Cursor) : Prop :=
  ∀ k, known = some k → c.current.kind = k

theorem Cursor.shows_none (c : Cursor) : c.Shows none := nofun

namespace Look

variable {look : Look} {line : Nat} {c : Cursor} {known : Option Token.Kind}

theorem kind_of_tells {n : Nat} {k : Token.Kind} (holds : look.holds line c = true)
    (told : look.tells n = some k) : (c.nth n).kind = k := by
  induction look with
  | kind m k' =>
      unfold tells at told
      split at told
      · rename_i same
        cases told
        rw [Look.holds, same, beq_iff_eq] at holds
        exact holds
      · cases told
  | word m ws =>
      unfold tells at told
      split at told
      · rename_i same
        cases told
        rw [Look.holds, same, Bool.and_eq_true, beq_iff_eq] at holds
        exact holds.1
      · cases told
  | and a b ihA ihB =>
      rw [Look.holds, Bool.and_eq_true] at holds
      unfold tells at told
      cases first : a.tells n with
      | none =>
          rw [first] at told
          exact ihB holds.2 told
      | some k' =>
          rw [first] at told
          cases told
          exact ihA holds.1 first
  | _ => cases told

theorem shows_tells (holds : look.holds line c = true) : c.Shows (look.tells 0) := by
  intro k told
  rw [← c.nth_zero]
  exact kind_of_tells holds told

/-- What was known of the current token, or what a look that holds tells of it. -/
theorem shows_or (shows : c.Shows known) (holds : look.holds line c = true) :
    c.Shows (known <|> look.tells 0) := by
  cases known with
  | none => exact shows_tells holds
  | some k => exact shows

theorem holds_of_decides {outcome : Bool} (shows : c.Shows known)
    (decided : look.decides known = some outcome) : look.holds line c = outcome := by
  induction look generalizing outcome with
  | kind n k' =>
      cases n with
      | zero =>
          obtain ⟨k, rfl, rfl⟩ := Option.map_eq_some_iff.mp decided
          rw [Look.holds, Cursor.nth_zero, shows k rfl]
      | succ n => cases decided
  | word n ws =>
      cases n with
      | zero =>
          obtain ⟨k, rfl, other⟩ := Option.bind_eq_some_iff.mp decided
          split at other
          · cases other
          · rename_i notWord
            cases other
            rw [Look.holds, Cursor.nth_zero, shows k rfl, beq_false_of_ne notWord]
            rfl
      | succ n => cases decided
  | not a ih =>
      obtain ⟨inner, found, rfl⟩ := Option.map_eq_some_iff.mp decided
      rw [Look.holds, ih found]
  | and a b ihA ihB =>
      unfold decides at decided
      unfold Look.holds
      split at decided <;> cases decided
      · rename_i one two
        rw [ihA one, ihB two]
        rfl
      · rename_i one
        rw [ihA one]
        rfl
      · rename_i two _
        rw [ihB two, Bool.and_false]
  | or a b ihA ihB =>
      unfold decides at decided
      unfold Look.holds
      split at decided <;> cases decided
      · rename_i one two
        rw [ihA one, ihB two]
        rfl
      · rename_i one
        rw [ihA one]
        rfl
      · rename_i two _
        rw [ihB two, Bool.or_true]
  | _ => cases decided

end Look

/-! ## How many tokens are taken -/

/-- More tokens than any look sees. -/
def Look.horizon : Nat := 4

namespace Grammar

/-- How many tokens are taken if `first` takes `taken` of them at least and `more` is what is taken
after it. The current token is still known then if nothing was taken before. -/
def onwards (first : Grammar) (known : Option Token.Kind) (taken : Nat)
    (more : Option Token.Kind → Nat) : Nat :=
  match known with
  | none => taken + more none
  | some k =>
      if first.idle then more (some k)
      else if taken = 0 then min (more (some k)) (more none + 1)
      else taken + more none

end Grammar

/-- How many tokens a construct that contains itself takes at least. -/
def Rule.least : Rule → Nat
  | .argument => 0
  | _ => 1

/-- How many tokens a grammar takes at least, if the current token is of the known kind. What always
breaks counts as more than any look sees. -/
def Grammar.least : Grammar → Option Token.Kind → Nat
  | .done, _ => 0
  | .take, _ => 1
  | .fail _, _ => Look.horizon
  | .seq first second, known => first.onwards known (first.least known) second.least
  | .choose look yes no, known =>
      match look.decides known with
      | some true => yes.least known
      | some false => no.least known
      | none => min (yes.least (known <|> look.tells 0)) (no.least known)
  | .many look item, known => if look.decides known = some true then item.least known else 0
  | .node lead _ _ body, known => lead.onwards known (lead.least known) body.least
  | .last g, known => g.least known
  | .atLeastOne _ g, known => g.least known
  | .markLine g, known => g.least known
  | .recovering _ g, known => g.least known
  | .call rule, _ => rule.least

theorem Rule.least_grammar (rule : Rule) : rule.least ≤ rule.grammar.least none := by
  cases rule with
  | value => decide
  | argument => decide
  | field => decide
  | ruleItem => decide

namespace Accepts

variable {g first : Grammar} {line : Nat} {c d : Cursor} {ns : List Node}
  {known : Option Token.Kind}

theorem idle_eq (accepts : Accepts g line c ns d) (idle : g.idle = true) : d = c := by
  cases g with
  | done =>
      cases accepts
      rfl
  | _ => cases idle

/-- What is taken by one grammar and after it. -/
theorem onwards_le {taken low : Nat} {more : Option Token.Kind → Nat}
    (accepts : Accepts first line c ns d) (shows : c.Shows known)
    (front : d.remaining + taken ≤ c.remaining)
    (back : ∀ known, d.Shows known → low + more known ≤ d.remaining) :
    low + first.onwards known taken more ≤ c.remaining := by
  have fresh := back none d.shows_none
  unfold Grammar.onwards
  cases known with
  | none =>
      dsimp only
      omega
  | some k =>
      dsimp only
      split
      · rename_i idle
        cases accepts.idle_eq idle
        exact back (some k) shows
      · split
        · -- either a token was taken or the current one is still the same
          obtain ⟨segment, moves⟩ := accepts.moves
          have count := moves.remaining
          cases segment with
          | nil =>
              rw [moves.eq_of_nil] at back
              have := back (some k) shows
              omega
          | cons t rest =>
              rw [List.length_cons] at count
              omega
        · omega

theorem least_le (accepts : Accepts g line c ns d) (ended : Token.Ended c.ahead)
    (proper : d.Proper) (shows : c.Shows known) : d.remaining + g.least known ≤ c.remaining := by
  induction accepts generalizing known with
  | done => exact Nat.le_refl _
  | take =>
      have properFirst : Cursor.Proper _ := (@Accepts.take 0 _).proper ended proper
      have step := Cursor.advance_moves_current ended properFirst
      have count := step.remaining
      simp only [List.length_singleton] at count
      simp only [Grammar.least]
      omega
  | seq one two ihOne ihTwo =>
      have endedNext := one.ended ended
      exact one.onwards_le shows (ihOne ended (two.proper endedNext proper) shows)
        fun known shows => ihTwo endedNext proper shows
  | yes holds _ ih =>
      unfold Grammar.least
      split
      · exact ih ended proper shows
      · rename_i decided
        rw [Look.holds_of_decides shows decided] at holds
        cases holds
      · have := ih ended proper (Look.shows_or shows holds)
        omega
  | no fails _ ih =>
      unfold Grammar.least
      split
      · rename_i decided
        rw [Look.holds_of_decides shows decided] at fails
        cases fails
      · exact ih ended proper shows
      · have := ih ended proper shows
        omega
  | stop fails =>
      unfold Grammar.least
      split
      · rename_i decided
        rw [Look.holds_of_decides shows decided] at fails
        cases fails
      · exact Nat.le_refl _
  | more _ one rest ihItem _ =>
      have endedNext := one.ended ended
      have item := ihItem ended (rest.proper endedNext proper) shows
      have forward := rest.remaining_le
      unfold Grammar.least
      split
      · omega
      · omega
  | node lead body ihLead ihBody =>
      have endedNext := lead.ended ended
      exact lead.onwards_le shows (ihLead ended (body.proper endedNext proper) shows)
        fun known shows => ihBody endedNext proper shows
  | last _ ih => exact ih ended proper shows
  | atLeastOne _ _ ih => exact ih ended proper shows
  | markLine _ ih => exact ih ended proper shows
  | intact _ ih => exact ih ended proper shows
  | @call rule _ c _ _ _ ih =>
      have inner := ih ended proper c.shows_none
      have := rule.least_grammar
      simp only [Grammar.least]
      omega

end Accepts

/-! ## A foreign line -/

/-- A place at which a row of tokens goes on in two ways: with what follows it, or with a token that
is foreign to both languages and stands apart, on a later line. -/
structure Break where
  /-- What follows. -/
  rest : List Token
  /-- What follows with the foreign token in front. -/
  rest' : List Token
  /-- The last line in front. -/
  bound : Nat
  /-- Where the text in front stops. -/
  edge : Nat
  lined : 1 ≤ bound
  more : 2 ≤ rest.length
  foreign : ∃ t later, rest' = t :: later ∧ t.kind = .unknown ∧ bound < t.span.line ∧
    edge < t.span.start

namespace Break

variable {B : Break}

/-- Two places with the same tokens up to the break. -/
structure At (B : Break) (front : List Token) (c c' : Cursor) : Prop where
  before : c'.before = c.before
  ahead : c.ahead = front ++ B.rest
  ahead' : c'.ahead = front ++ B.rest'
  inFront : ∀ t ∈ c.before.toList ++ front, t.span.endLine ≤ B.bound ∧ t.span.stop ≤ B.edge

namespace At

variable {front : List Token} {c c' d : Cursor}

theorem forks (place : B.At front c c') : Cursor.Forks front B.rest B.rest' c c' :=
  ⟨place.before, place.ahead, place.ahead'⟩

/-- At the break the second place shows the foreign token. -/
theorem nth_foreign (place : B.At front c c') :
    (c'.nth front.length).kind = .unknown ∧ B.bound < (c'.nth front.length).span.line ∧
      B.edge < (c'.nth front.length).span.start := by
  obtain ⟨t, later, rest, foreign⟩ := B.foreign
  unfold Cursor.nth
  rw [place.ahead', rest, List.getElem?_append_right (Nat.le_refl _), Nat.sub_self]
  exact foreign

theorem lineBefore_le (place : B.At front c c') : c.lineBefore ≤ B.bound := by
  unfold Cursor.lineBefore Token.lastLine
  cases known : c.before with
  | none => exact B.lined
  | some t =>
      refine (place.inFront t ?_).1
      rw [known]
      exact List.mem_append_left _ (by simp)

theorem adjacent_eq_false (place : B.At [] c c') : c'.adjacent = false := by
  unfold Cursor.adjacent
  rw [place.before]
  cases known : c.before with
  | none => rfl
  | some t =>
      have atMost : t.span.stop ≤ B.edge := by
        refine (place.inFront t ?_).2
        rw [known]
        exact List.mem_append_left _ (by simp)
      have apart := place.nth_foreign.2.2
      simp only [List.length_nil, Cursor.nth_zero] at apart
      simp only [Option.any_some, beq_eq_false_iff_ne]
      omega

/-- A place in front of the break has a counterpart. -/
theorem exists_at {segment : List Token} (place : B.At front c c') (moves : c.Moves segment d)
    (inFront : B.rest.length ≤ d.remaining) : ∃ later d', B.At later d d' := by
  obtain ⟨later, d', split, next⟩ := place.forks.exists_of_moves moves inFront
  refine ⟨later, d', next.before, next.ahead, next.ahead', ?_⟩
  intro t member
  refine place.inFront t ?_
  rw [moves.before] at member
  rw [split]
  rcases List.mem_append.mp member with member | member
  · cases tail : segment.getLast? with
    | none =>
        rw [tail] at member
        exact List.mem_append_left _ member
    | some last =>
        rw [tail] at member
        have isLast : t = last := by simpa using member
        rw [isLast]
        simp [List.mem_of_getLast? tail]
  · simp [member]

/-- In front of the break the same tokens are taken in both rows. -/
theorem moves {later segment : List Token} {d' : Cursor} (place : B.At front c c')
    (placeNext : B.At later d d') (moves : c.Moves segment d) :
    front = segment ++ later ∧ c'.Moves segment d' := by
  refine place.forks.moves placeNext.forks ?_ moves
  obtain ⟨t, more, rest, _⟩ := B.foreign
  rw [rest]
  exact List.cons_ne_nil _ _

end At

end Break

/-! ## Looks across a break -/

namespace Look

variable {B : Break} {front : List Token} {c c' : Cursor} {line : Nat}

/-- A look does not hold where it needs another token than the foreign one. -/
theorem holds_eq_false {look : Look} (place : B.At front c c') (marked : line ≤ B.bound)
    (needs : look.needs front.length = true) : look.holds line c' = false := by
  obtain ⟨foreign, later, apart⟩ := place.nth_foreign
  -- at the break itself the foreign token is the current one
  have atBreak (atFront : front.length = 0) : B.At [] c c' ∧ B.bound < c'.current.span.line := by
    rw [atFront, Cursor.nth_zero] at later
    rw [List.length_eq_zero_iff.mp atFront] at place
    exact ⟨place, later⟩
  induction look with
  | kind n k =>
      simp only [Look.needs, Bool.and_eq_true, beq_iff_eq, bne_iff_ne] at needs
      unfold Look.holds
      rw [needs.1, foreign, beq_false_of_ne needs.2.symm]
  | word n ws =>
      unfold Look.needs at needs
      unfold Look.holds
      rw [beq_iff_eq.mp needs, foreign]
      rfl
  | adjacent => exact (atBreak (beq_iff_eq.mp needs)).1.adjacent_eq_false
  | sameLine =>
      obtain ⟨_, behind⟩ := atBreak (beq_iff_eq.mp needs)
      have before := place.lineBefore_le
      rw [← place.forks.lineBefore_eq] at before
      exact beq_false_of_ne (by omega)
  | onLine =>
      obtain ⟨_, behind⟩ := atBreak (beq_iff_eq.mp needs)
      exact beq_false_of_ne (by omega)
  | and a b ihA ihB =>
      unfold Look.holds
      rcases Bool.or_eq_true_iff.mp needs with needs | needs
      · rw [ihA needs, Bool.false_and]
      · rw [ihB needs, Bool.and_false]
  | or a b ihA ihB =>
      obtain ⟨needsA, needsB⟩ := Bool.and_eq_true_iff.mp needs
      unfold Look.holds
      rw [ihA needsA, ihB needsB]
      rfl
  | not a => cases needs
  | capitals => cases needs

/-- Whether a look has one answer because it holds of no foreign token and, where it holds, at least
as many tokens follow as it sees; `yes` counts them. -/
def told (yes : Option Token.Kind → Nat) : Look → Bool
  | .or a b => a.told yes && b.told yes
  | look => (List.range look.reach).all (look.needs ·) && decide (look.reach ≤ yes (look.tells 0))

/-- Whether a look has one answer at a break; `yes` counts the tokens that follow in front of the
break where it holds, and `no` those where it fails. -/
def unswayed (yes no : Option Token.Kind → Nat) (look : Look) : Bool :=
  look.told yes ||
    decide (1 ≤ yes none ∧ 1 ≤ no none ∧ look.reach ≤ yes (look.tells 0) ∧
      look.reach ≤ no (look.tells 0))

theorem holds_eq_of_needs {yes : Option Token.Kind → Nat} {look : Look} (place : B.At front c c')
    (marked : line ≤ B.bound) (needs : ∀ n < look.reach, look.needs n = true)
    (long : look.reach ≤ yes (look.tells 0))
    (follow : look.holds line c = true → ∀ known, c.Shows known → yes known ≤ front.length) :
    look.holds line c' = look.holds line c := by
  by_cases short : look.reach ≤ front.length
  · exact holds_eq_of_reach place.forks short
  · rw [holds_eq_false place marked (needs _ (by omega))]
    -- if it held here, it would not see the break
    cases holds : look.holds line c with
    | false => rfl
    | true =>
        have := follow holds _ (shows_tells holds)
        omega

theorem holds_eq_of_told {yes : Option Token.Kind → Nat} {look : Look} (place : B.At front c c')
    (marked : line ≤ B.bound) (told : look.told yes = true)
    (follow : look.holds line c = true → ∀ known, c.Shows known → yes known ≤ front.length) :
    look.holds line c' = look.holds line c := by
  have plain {look : Look}
      (told : ((List.range look.reach).all (look.needs ·) &&
        decide (look.reach ≤ yes (look.tells 0))) = true)
      (follow : look.holds line c = true → ∀ known, c.Shows known → yes known ≤ front.length) :
      look.holds line c' = look.holds line c := by
    obtain ⟨needs, long⟩ := Bool.and_eq_true_iff.mp told
    refine holds_eq_of_needs place marked ?_ (of_decide_eq_true long) follow
    intro n within
    exact List.all_eq_true.mp needs n (List.mem_range.mpr within)
  induction look with
  | or a b ihA ihB =>
      obtain ⟨toldA, toldB⟩ := Bool.and_eq_true_iff.mp told
      unfold Look.holds at follow ⊢
      rw [ihA toldA fun holds => follow (by rw [holds]; rfl),
        ihB toldB fun holds => follow (by rw [holds, Bool.or_true])]
  | _ => exact plain told follow

/-- An unswayed look has one answer. -/
theorem holds_eq_of_unswayed {yes no : Option Token.Kind → Nat} {look : Look}
    (place : B.At front c c') (marked : line ≤ B.bound) (unswayed : look.unswayed yes no = true)
    (follow : look.holds line c = true → ∀ known, c.Shows known → yes known ≤ front.length)
    (other : look.holds line c = false → ∀ known, c.Shows known → no known ≤ front.length) :
    look.holds line c' = look.holds line c := by
  rcases Bool.or_eq_true_iff.mp unswayed with told | counted
  · exact holds_eq_of_told place marked told follow
  · obtain ⟨someYes, someNo, longYes, longNo⟩ := of_decide_eq_true counted
    have some : 0 < front.length := by
      cases holds : look.holds line c with
      | true => exact Nat.lt_of_lt_of_le someYes (follow holds none c.shows_none)
      | false => exact Nat.lt_of_lt_of_le someNo (other holds none c.shows_none)
    by_cases shows : c.Shows (look.tells 0)
    · -- the kind of the current token is the one that was counted with
      refine holds_eq_of_reach place.forks ?_
      cases holds : look.holds line c with
      | true => exact Nat.le_trans longYes (follow holds _ shows)
      | false => exact Nat.le_trans longNo (other holds _ shows)
    · have fails {d : Cursor} (same : d.current = c.current) : look.holds line d = false := by
        cases holds : look.holds line d with
        | false => rfl
        | true =>
            refine absurd ?_ shows
            intro k told
            rw [← same]
            exact shows_tells holds k told
      rw [fails (place.forks.current_eq some), fails rfl]

end Look

/-! ## Grammars across a break -/

/-- How many tokens follow in front of a break if some grammars are accepted one after the other and
`base` counts those after them. -/
def Grammar.leastOf (base : Option Token.Kind → Nat) : List Grammar → Option Token.Kind → Nat
  | [], known => base known
  | g :: rest, known => g.onwards known (g.least known) (leastOf base rest)

/-- How many tokens follow at least what a construct that contains itself accepts, in the construct
around it. An argument is closed by a parenthesis. -/
def Rule.tail : Rule → Nat
  | .argument => 1
  | _ => 0

/-- Whether a grammar accepts the same tokens whatever stands behind a break. The given grammars
follow in front of the break, and `base` counts the tokens after them. -/
def Grammar.undisturbed (base : Option Token.Kind → Nat) : Grammar → List Grammar → Bool
  | .done, _ => true
  | .take, _ => true
  | .fail _, _ => true
  | .seq first second, rest =>
      first.undisturbed base (second :: rest) && second.undisturbed base rest
  | .choose look yes no, rest =>
      look.unswayed (leastOf base (yes :: rest)) (leastOf base (no :: rest)) &&
        (yes.undisturbed base rest && no.undisturbed base rest)
  | .many look item, rest =>
      look.unswayed (leastOf base (item :: .many look item :: rest)) (leastOf base rest) &&
        item.undisturbed base (.many look item :: rest)
  | .node lead cases _ body, rest =>
      (cases.all fun (look, _) =>
          look.unswayed (leastOf base (body :: rest)) (leastOf base (body :: rest))) &&
        (decide (1 ≤ leastOf base (lead :: body :: rest) none) &&
          (lead.undisturbed base (body :: rest) && body.undisturbed base rest))
  | .last g, rest => g.undisturbed base rest
  | .atLeastOne _ g, rest => g.undisturbed base rest
  | .markLine g, rest => g.undisturbed base rest
  | .recovering _ g, rest => g.undisturbed base rest
  | .call rule, rest => decide (rule.tail ≤ leastOf base rest none)

theorem Rule.grammar_undisturbed (rule : Rule) :
    rule.grammar.undisturbed (fun _ => rule.tail) [] = true := by
  cases rule with
  | value => decide
  | argument => decide
  | field => decide
  | ruleItem => decide

namespace Break

/-- Some grammars are accepted one after the other in front of a break, and `base` counts the tokens
after them. -/
inductive Follows (B : Break) (base : Option Token.Kind → Nat) : List Grammar → Cursor → Prop
  | nil {d} : (∀ known, d.Shows known → B.rest.length + base known ≤ d.remaining) →
      Follows B base [] d
  | cons {g rest line c ns d} : Accepts g line c ns d → Follows B base rest d →
      Follows B base (g :: rest) c

variable {B : Break} {base : Option Token.Kind → Nat} {rest : List Grammar} {c c' d : Cursor}
  {front : List Token} {known : Option Token.Kind}

theorem Follows.inFront (follows : B.Follows base rest c) : B.rest.length ≤ c.remaining := by
  induction follows with
  | nil enough =>
      have := enough none (Cursor.shows_none _)
      omega
  | cons accepts _ ih => exact Nat.le_trans ih accepts.remaining_le

/-- In front of a break the end token is not reached. -/
theorem proper (ended : Token.Ended c.ahead) (inFront : B.rest.length ≤ c.remaining) :
    c.Proper := by
  intro atEnd
  have alone := Cursor.ahead_eq_of_eof ended atEnd
  have more := B.more
  unfold Cursor.remaining at inFront
  rw [alone, List.length_singleton] at inFront
  omega

theorem Follows.leastOf_le (follows : B.Follows base rest c) (ended : Token.Ended c.ahead)
    (shows : c.Shows known) : B.rest.length + Grammar.leastOf base rest known ≤ c.remaining := by
  induction follows generalizing known with
  | nil enough => exact enough known shows
  | cons accepts later ih =>
      have endedNext := accepts.ended ended
      have front := accepts.least_le ended (proper endedNext later.inFront) shows
      exact accepts.onwards_le shows front fun known shows => ih endedNext shows

/-- So many tokens are in front of the break. -/
theorem Follows.leastOf_le_length (follows : B.Follows base rest c) (place : B.At front c c')
    (ended : Token.Ended c.ahead) (shows : c.Shows known) :
    Grammar.leastOf base rest known ≤ front.length := by
  have enough := follows.leastOf_le ended shows
  have := place.forks.remaining
  omega

end Break

/-- What unswayed looks pick is the same. -/
theorem Grammar.pick_eq_of_unswayed {B : Break} {front : List Token} {line : Nat} {c c' : Cursor}
    {otherwise : Option Node.Kind} {cases : List (Look × Node.Kind)}
    {after : Option Token.Kind → Nat} (place : B.At front c c') (marked : line ≤ B.bound)
    (unswayed : (cases.all fun (look, _) => look.unswayed after after) = true)
    (follow : ∀ known, c.Shows known → after known ≤ front.length) :
    Grammar.pick line c' otherwise cases = Grammar.pick line c otherwise cases := by
  refine Grammar.pick_congr fun look member => ?_
  obtain ⟨entry, among, rfl⟩ := List.mem_map.mp member
  exact Look.holds_eq_of_unswayed place marked (List.all_eq_true.mp unswayed entry among)
    (fun _ => follow) (fun _ => follow)

/-- **What is accepted in front of a foreign line is accepted without regard to it.** -/
theorem Accepts.undisturbed {B : Break} {base : Option Token.Kind → Nat} {g : Grammar}
    {rest : List Grammar} {front : List Token} {line : Nat} {c c' d : Cursor} {ns : List Node}
    (accepts : Accepts g line c ns d) (undisturbed : g.undisturbed base rest = true)
    (place : B.At front c c') (ended : Token.Ended c.ahead) (marked : line ≤ B.bound)
    (follows : B.Follows base rest d) :
    ∃ later d', B.At later d d' ∧ Accepts g line c' ns d' := by
  induction accepts generalizing base rest front c' with
  | done => exact ⟨front, c', place, .done⟩
  | @take line c =>
      obtain ⟨segment, moves⟩ := c.advance_moves
      have properNext := Break.proper (moves.ended ended).2 follows.inFront
      have step := Cursor.advance_moves_current ended
        ((@Accepts.take line c).proper ended properNext)
      obtain ⟨later, d', placeNext⟩ := place.exists_at step follows.inFront
      have step' := (place.moves placeNext step).2
      refine ⟨later, d', placeNext, ?_⟩
      rw [← step'.advance_eq]
      exact .take
  | seq one two ihOne ihTwo =>
      obtain ⟨first, second⟩ := Bool.and_eq_true_iff.mp undisturbed
      obtain ⟨later, d', placeNext, one'⟩ := ihOne first place ended marked (.cons two follows)
      obtain ⟨last, e', placeLast, two'⟩ :=
        ihTwo second placeNext (one.ended ended) marked follows
      exact ⟨last, e', placeLast, .seq one' two'⟩
  | yes holds reads ih =>
      obtain ⟨unswayed, both⟩ := Bool.and_eq_true_iff.mp undisturbed
      obtain ⟨later, d', placeNext, reads'⟩ :=
        ih (Bool.and_eq_true_iff.mp both).1 place ended marked follows
      have same := Look.holds_eq_of_unswayed place marked unswayed
        (fun _ known shows =>
          (Break.Follows.cons reads follows).leastOf_le_length place ended shows)
        (fun fails => absurd (holds.symm.trans fails) (by decide))
      exact ⟨later, d', placeNext, .yes (same.trans holds) reads'⟩
  | no fails reads ih =>
      obtain ⟨unswayed, both⟩ := Bool.and_eq_true_iff.mp undisturbed
      obtain ⟨later, d', placeNext, reads'⟩ :=
        ih (Bool.and_eq_true_iff.mp both).2 place ended marked follows
      have same := Look.holds_eq_of_unswayed place marked unswayed
        (fun holds => absurd (holds.symm.trans fails) (by decide))
        (fun _ known shows =>
          (Break.Follows.cons reads follows).leastOf_le_length place ended shows)
      exact ⟨later, d', placeNext, .no (same.trans fails) reads'⟩
  | stop fails =>
      obtain ⟨unswayed, _⟩ := Bool.and_eq_true_iff.mp undisturbed
      have same := Look.holds_eq_of_unswayed place marked unswayed
        (fun holds => absurd (holds.symm.trans fails) (by decide))
        (fun _ known shows => follows.leastOf_le_length place ended shows)
      exact ⟨front, c', place, .stop (same.trans fails)⟩
  | more holds one more ihItem ihRest =>
      have both := undisturbed
      obtain ⟨unswayed, item⟩ := Bool.and_eq_true_iff.mp both
      have followsItem := Break.Follows.cons more follows
      obtain ⟨later, d', placeNext, one'⟩ := ihItem item place ended marked followsItem
      obtain ⟨last, e', placeLast, more'⟩ :=
        ihRest undisturbed placeNext (one.ended ended) marked follows
      have same := Look.holds_eq_of_unswayed place marked unswayed
        (fun _ known shows =>
          (Break.Follows.cons one followsItem).leastOf_le_length place ended shows)
        (fun fails => absurd (holds.symm.trans fails) (by decide))
      exact ⟨last, e', placeLast, .more (same.trans holds) one' more'⟩
  | @node lead cases otherwise body line c ns d more e readsLead readsBody ihLead ihBody =>
      obtain ⟨looks, others⟩ := Bool.and_eq_true_iff.mp undisturbed
      obtain ⟨some, both⟩ := Bool.and_eq_true_iff.mp others
      obtain ⟨lead, body⟩ := Bool.and_eq_true_iff.mp both
      have followsLead := Break.Follows.cons readsBody follows
      obtain ⟨later, d', placeNext, readsLead'⟩ := ihLead lead place ended marked followsLead
      have endedNext := readsLead.ended ended
      obtain ⟨last, e', placeLast, readsBody'⟩ := ihBody body placeNext endedNext marked follows
      have picked := @Grammar.pick_eq_of_unswayed _ _ _ _ _ otherwise _ _ placeNext marked looks
        fun _ shows => followsLead.leastOf_le_length placeNext endedNext shows
      obtain ⟨one, toNext⟩ := readsLead.moves
      obtain ⟨two, toLast⟩ := readsBody.moves
      have moves := toNext.trans toLast
      obtain ⟨split, moves'⟩ := place.moves placeLast moves
      -- the node is not empty, or it is a point in front of a token that is no foreign one
      have current : one ++ two = [] → e'.current = e.current := by
        intro nothing
        have counted := (Break.Follows.cons readsLead followsLead).leastOf_le_length place ended
          c.shows_none
        have atLeast := of_decide_eq_true some
        rw [nothing, List.nil_append] at split
        refine placeLast.forks.current_eq ?_
        rw [← split]
        omega
      refine ⟨last, e', placeLast, ?_⟩
      rw [← Node.wrap_congr moves moves' current, ← picked]
      exact .node readsLead' readsBody'
  | last _ ih =>
      obtain ⟨later, d', placeNext, reads'⟩ := ih undisturbed place ended marked follows
      exact ⟨later, d', placeNext, .last reads'⟩
  | atLeastOne _ some ih =>
      obtain ⟨later, d', placeNext, reads'⟩ := ih undisturbed place ended marked follows
      exact ⟨later, d', placeNext, .atLeastOne reads' some⟩
  | markLine _ ih =>
      obtain ⟨later, d', placeNext, reads'⟩ :=
        ih undisturbed place ended place.lineBefore_le follows
      rw [← place.forks.lineBefore_eq] at reads'
      exact ⟨later, d', placeNext, .markLine reads'⟩
  | intact _ ih =>
      obtain ⟨later, d', placeNext, reads'⟩ := ih undisturbed place ended marked follows
      exact ⟨later, d', placeNext, .intact reads'⟩
  | @call rule line c ns d reads ih =>
      have tail := of_decide_eq_true undisturbed
      have followsRule : B.Follows (fun _ => rule.tail) [] d := by
        refine .nil ?_
        intro known shows
        have := follows.leastOf_le (reads.ended ended) d.shows_none
        omega
      obtain ⟨later, d', placeNext, reads'⟩ :=
        ih rule.grammar_undisturbed place ended (Nat.zero_le _) followsRule
      exact ⟨later, d', placeNext, .call reads'⟩

end EntityFlow
