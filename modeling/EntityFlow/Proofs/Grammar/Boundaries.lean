import EntityFlow.Proofs.Grammar.Blocks
import EntityFlow.Proofs.Grammar.Tiling

/-!
# Boundaries in blocks

A tree shows its blocks: a node of a kind that has a block, two braces that are in none of its
parts, and parts on this and on that side of a place between these braces (`Node.HasBoundary`).
Such a place is one that the grammar passes in this block, in front of an item or of the closing
brace (`Accepts.passes_of_boundary`).

That takes three things, each checked on the grammars as data:

* **items** are single nodes (`Grammar.wraps`);
* **braces** other than those of blocks are inside nodes (`Grammar.unbraced`);
* **blocks** are where the kinds of nodes say that they are (`Grammar.ownsBlock`,
  `Grammar.blocksShow`).
-/

namespace EntityFlow

/-! ## Boundaries -/

/-- The kinds of the nodes that have a block. -/
def Node.Kind.blocks : List Node.Kind :=
  [.nestedField, .entity, .enum, .relationships, .service, .serviceMethod, .event, .input, .config,
    .flow, .flowSystems, .flowSystem, .flowSystemService, .flowStart, .flowWhen, .flowWhenIf,
    .flowWhenElseIf, .flowWhenElse, .flowEnd]

/-- The tokens of a node that are in none of its parts. -/
def Node.own (n : Node) (tokens : List Token) : List Token :=
  (Token.within n.span tokens).filter fun t => n.children.all fun part => !part.span.contains t.span

/-- A place of the source is in the block of a node, between two of the items or next to a brace. -/
structure Node.HasBoundary (tokens : List Token) (place : Nat) (n : Node) : Prop where
  kind : n.kind ∈ Node.Kind.blocks
  opened : ∃ t ∈ n.own tokens, t.kind = .lBrace ∧ t.span.stop ≤ place
  closed : ∃ t ∈ n.own tokens, t.kind = .rBrace ∧ place ≤ t.span.start
  between : ∀ part ∈ n.children, part.span.stop ≤ place ∨ place ≤ part.span.start

instance (tokens : List Token) (place : Nat) (n : Node) : Decidable (n.HasBoundary tokens place) :=
  decidable_of_iff (n.kind ∈ Node.Kind.blocks ∧
      (∃ t ∈ n.own tokens, t.kind = .lBrace ∧ t.span.stop ≤ place) ∧
      (∃ t ∈ n.own tokens, t.kind = .rBrace ∧ place ≤ t.span.start) ∧
      ∀ part ∈ n.children, part.span.stop ≤ place ∨ place ≤ part.span.start)
    ⟨fun all => ⟨all.1, all.2.1, all.2.2.1, all.2.2.2⟩,
      fun all => ⟨all.kind, all.opened, all.closed, all.between⟩⟩

/-- The place of the cursor is between the tokens in front of it and those behind it. -/
structure Cursor.Splits (tokens : List Token) (place : Nat) (b : Cursor) : Prop where
  on : b.On tokens
  stops : b.stopsAt ≤ place
  starts : place ≤ b.startsAt

/-- Of two places among some tokens one is reached from the other. -/
theorem Cursor.On.total {tokens : List Token} {b c : Cursor} (one : b.On tokens)
    (other : c.On tokens) (ordered : Token.InOrder 0 tokens) :
    (∃ segment, b.Moves segment c) ∨ ∃ segment, c.Moves segment b := by
  have reached {b c : Cursor} {front segment : List Token} (other : c.On tokens)
      (toB : (Cursor.start tokens).Moves front b)
      (toC : (Cursor.start tokens).Moves (front ++ segment) c) : b.Moves segment c := by
    refine ⟨?_, ?_, fun _ => (other.ended ordered).ne_nil⟩
    · have ahead := toB.ahead.symm.trans toC.ahead
      rw [List.append_assoc] at ahead
      exact List.append_cancel_left ahead
    · rw [toC.before, toB.before, List.getLast?_append, Option.or_assoc]
  have ⟨front, toB⟩ := one
  have ⟨front', toC⟩ := other
  have whole : front ++ b.ahead = front' ++ c.ahead := toB.ahead.symm.trans toC.ahead
  rcases List.append_eq_append_iff.mp whole with ⟨segment, rfl, _⟩ | ⟨segment, rfl, _⟩
  · exact Or.inl ⟨segment, reached other toB toC⟩
  · exact Or.inr ⟨segment, reached one toC toB⟩

/-- There is one place only between the same tokens. -/
theorem Cursor.Splits.eq {tokens : List Token} {place : Nat} {b c : Cursor}
    (one : b.Splits tokens place) (other : c.Splits tokens place)
    (ordered : Token.InOrder 0 tokens) : c = b := by
  have same {b c : Cursor} {segment : List Token} (one : b.Splits tokens place)
      (other : c.Splits tokens place) (moves : b.Moves segment c) : c = b := by
    by_cases nothing : segment = []
    · rw [nothing] at moves
      exact moves.eq_of_nil
    · have := moves.startsAt_lt_stopsAt one.on ordered nothing
      have := one.starts
      have := other.stops
      omega
  rcases one.on.total other.on ordered with ⟨_, moves⟩ | ⟨_, moves⟩
  · exact same one other moves
  · exact (same other one moves).symm

/-! ## Single nodes -/

namespace Grammar

/-- Whether a grammar yields one node for all that it takes. -/
def wraps : Grammar → Bool
  | .node _ cases otherwise body => otherwise.isSome || alwaysPicks cases body
  | .choose _ yes no => yes.wraps && no.wraps
  | .fail _ => true
  | .call rule => rule != .argument
  | _ => false

end Grammar

theorem Rule.grammar_wraps (rule : Rule) (wraps : (rule != .argument) = true) :
    rule.grammar.wraps = true := by
  cases rule with
  | value => decide
  | argument => cases wraps
  | field => decide
  | ruleItem => decide

namespace Accepts

variable {g first : Grammar} {line : Nat} {c d e : Cursor} {ns : List Node}

theorem unique {ns' : List Node} {d' : Cursor} (one : Accepts g line c ns d)
    (other : Accepts g line c ns' d') : ns' = ns ∧ d' = d := by
  cases (one.reads 1 []).unique (other.reads 1 [])
  exact ⟨rfl, rfl⟩

/-- What is taken in two steps. -/
theorem taken_append {second : Grammar} {more : List Node} {line' : Nat}
    (one : Accepts first line c ns d) (two : Accepts second line' d more e) :
    c.taken e = c.taken d ++ d.taken e := by
  obtain ⟨_, toNext⟩ := one.moves
  obtain ⟨_, toLast⟩ := two.moves
  rw [(toNext.trans toLast).taken, toNext.taken, toLast.taken]

/-- One node for all that was taken. -/
theorem wrapped (accepts : Accepts g line c ns d) (wraps : g.wraps = true) :
    ∃ k parts, ns = [Node.ofTokens k c d parts] := by
  induction accepts with
  | yes _ _ ih => exact ih (Bool.and_eq_true_iff.mp wraps).1
  | no _ _ ih => exact ih (Bool.and_eq_true_iff.mp wraps).2
  | @node lead cases otherwise body line c ns d more e _ readsBody _ _ =>
      obtain ⟨k, picked⟩ : ∃ k, Grammar.pick line d otherwise cases = some k := by
        rcases Bool.or_eq_true_iff.mp wraps with always | always
        · rcases Grammar.pick_eq_or d with same | ⟨k, _, picked⟩
          · rw [same]
            exact Option.isSome_iff_exists.mp always
          · exact ⟨k, picked⟩
        · exact Option.isSome_iff_exists.mp
            (Grammar.pick_isSome_of_alwaysPicks always (readsBody.reads 1 []))
      rw [picked]
      exact ⟨k, ns ++ more, rfl⟩
  | @call rule _ _ _ _ _ ih => exact ih (rule.grammar_wraps wraps)
  | _ => cases wraps

end Accepts

/-! ## Braces inside nodes -/

/-- The kinds of the next tokens where a look holds, as far as the look tells them. -/
def Look.kinds (look : Look) : List Token.Kind :=
  match look.tells 0, look.tells 1 with
  | some k, some l => [k, l]
  | some k, none => [k]
  | none, _ => []

/-- What is known of the next tokens where a look holds. -/
def Look.refine (look : Look) (known : List Token.Kind) : List Token.Kind :=
  if look.kinds = [] then known else look.kinds

/-- The next tokens are of the known kinds. -/
def Cursor.ShowsAll (known : List Token.Kind) (c : Cursor) : Prop :=
  ∀ n k, known[n]? = some k → (c.nth n).kind = k

namespace Cursor

variable {known : List Token.Kind} {c : Cursor} {line : Nat} {look : Look}

theorem showsAll_nil (c : Cursor) : c.ShowsAll [] := nofun

theorem ShowsAll.kinds (holds : look.holds line c = true) : c.ShowsAll look.kinds := by
  intro n k member
  unfold Look.kinds at member
  split at member
  · rename_i first second
    match n with
    | 0 =>
        cases member
        exact Look.kind_of_tells holds first
    | 1 =>
        cases member
        exact Look.kind_of_tells holds second
    | n + 2 => cases member
  · rename_i first _
    match n with
    | 0 =>
        cases member
        exact Look.kind_of_tells holds first
    | n + 1 => cases member
  · cases member

theorem ShowsAll.refine (shows : c.ShowsAll known) (holds : look.holds line c = true) :
    c.ShowsAll (look.refine known) := by
  unfold Look.refine
  split
  · exact shows
  · exact .kinds holds

theorem nth_advance (c : Cursor) (n : Nat) : c.advance.nth n = c.nth (n + 1) := by
  obtain ⟨before, ahead⟩ := c
  match ahead with
  | [] => rfl
  | [t] => cases n <;> rfl
  | t :: u :: rest => rfl

end Cursor

/-- What is known of the next tokens after a grammar. -/
def Grammar.leaves (known : List Token.Kind) : Grammar → List Token.Kind
  | .done => known
  | .take => known.tail
  | _ => []

theorem Accepts.showsAll {g : Grammar} {line : Nat} {c d : Cursor} {ns : List Node}
    {known : List Token.Kind} (accepts : Accepts g line c ns d) (shows : c.ShowsAll known) :
    d.ShowsAll (g.leaves known) := by
  cases g with
  | done =>
      cases accepts
      exact shows
  | take =>
      cases accepts
      intro n k later
      rw [Cursor.nth_advance]
      refine shows (n + 1) k ?_
      rw [← later]
      exact List.getElem?_tail.symm
  | _ => exact d.showsAll_nil

/-- Whether no brace is taken, or none but inside of nodes if these `shield` their tokens. -/
def Grammar.unbraced (shield : Bool) : Grammar → List Token.Kind → Bool
  | .done, _ => true
  | .take, known => known.head?.any fun k => k != .lBrace && k != .rBrace
  | .fail _, _ => true
  | .seq first second, known =>
      first.unbraced shield known && second.unbraced shield (first.leaves known)
  | .choose look yes no, known =>
      yes.unbraced shield (look.refine known) && no.unbraced shield known
  | .many look item, _ => item.unbraced shield look.kinds
  | .node lead cases otherwise body, known =>
      shield && (node lead cases otherwise body).wraps ||
        lead.unbraced shield known && body.unbraced shield (lead.leaves known)
  | .last g, known => g.unbraced false known
  | .atLeastOne _ g, known => g.unbraced shield known
  | .markLine g, known => g.unbraced shield known
  | .recovering _ g, known => g.unbraced shield known
  | .call rule, _ => shield && (call rule).wraps

/-- A token in one of some nodes that shield it. -/
def Node.Shields (shield : Bool) (ns : List Node) (t : Token) : Prop :=
  shield = true ∧ ∃ n ∈ ns, n.span.contains t.span = true

/-- All braces among some tokens are in nodes that shield them. -/
def Node.ShieldsBraces (shield : Bool) (ns : List Node) (taken : List Token) : Prop :=
  ∀ t ∈ taken, t.kind = .lBrace ∨ t.kind = .rBrace → Shields shield ns t

namespace Accepts

variable {tokens : List Token} {g : Grammar} {line : Nat} {c d : Cursor} {ns : List Node}
  {known : List Token.Kind} {shield : Bool}

/-- A single node holds all tokens that were taken. -/
theorem wrapped_contains {t : Token} (accepts : Accepts g line c ns d) (wraps : g.wraps = true)
    (on : c.On tokens) (ordered : Token.InOrder 0 tokens) (member : t ∈ c.taken d) :
    ∃ n ∈ ns, n.span.contains t.span = true := by
  obtain ⟨k, parts, rfl⟩ := accepts.wrapped wraps
  obtain ⟨_, moves⟩ := accepts.moves
  rw [moves.taken] at member
  exact ⟨_, List.mem_cons_self, Node.ofTokens_contains k parts moves on ordered member⟩

/-- What is taken in two steps is shielded by the nodes of both. -/
theorem shields_append {first second : Grammar} {more : List Node} {line' : Nat} {e : Cursor}
    (one : Accepts first line c ns d) (two : Accepts second line' d more e)
    (front : Node.ShieldsBraces shield ns (c.taken d))
    (back : Node.ShieldsBraces shield more (d.taken e)) :
    Node.ShieldsBraces shield (ns ++ more) (c.taken e) := by
  intro t member brace
  rw [one.taken_append two] at member
  rcases List.mem_append.mp member with member | member
  · obtain ⟨isShield, n, inner, contains⟩ := front t member brace
    exact ⟨isShield, n, List.mem_append_left _ inner, contains⟩
  · obtain ⟨isShield, n, inner, contains⟩ := back t member brace
    exact ⟨isShield, n, List.mem_append_right _ inner, contains⟩

theorem unbraced (accepts : Accepts g line c ns d) (unbraced : g.unbraced shield known = true)
    (shows : c.ShowsAll known) (on : c.On tokens) (ordered : Token.InOrder 0 tokens) :
    Node.ShieldsBraces shield ns (c.taken d) := by
  induction accepts generalizing known shield with
  | @done _ c =>
      intro t member
      rw [(Cursor.Moves.refl c).taken] at member
      cases member
  | @take line c =>
      intro t member brace
      obtain ⟨k, first, plain⟩ := (Option.any_eq_true _ _).mp unbraced
      have kind : c.current.kind = k := by
        rw [← c.nth_zero]
        refine shows 0 k ?_
        rw [← List.head?_eq_getElem?]
        exact first
      obtain rfl : t = c.current := by
        obtain ⟨before, ahead⟩ := c
        match ahead with
        | [] => cases member
        | [u] => simp [Cursor.advance, Cursor.taken, Cursor.remaining] at member
        | u :: v :: rest =>
            have same : t = u := by
              simpa [Cursor.advance, Cursor.taken, Cursor.remaining] using member
            exact same
      rw [kind] at brace
      rcases brace with rfl | rfl <;> cases plain
  | seq one two ihOne ihTwo =>
      obtain ⟨first, second⟩ := Bool.and_eq_true_iff.mp unbraced
      obtain ⟨_, moves⟩ := one.moves
      exact one.shields_append two (ihOne first shows on)
        (ihTwo second (one.showsAll shows) (on.moves moves))
  | yes holds _ ih => exact ih (Bool.and_eq_true_iff.mp unbraced).1 (shows.refine holds) on
  | no _ _ ih => exact ih (Bool.and_eq_true_iff.mp unbraced).2 shows on
  | @stop _ _ _ c =>
      intro t member
      rw [(Cursor.Moves.refl c).taken] at member
      cases member
  | @more look item line c ns d more e holds one rest ihOne ihRest =>
      have again : (Grammar.many look item).unbraced shield [] = true := unbraced
      obtain ⟨_, moves⟩ := one.moves
      exact one.shields_append rest (ihOne unbraced (.kinds holds) on)
        (ihRest again d.showsAll_nil (on.moves moves))
  | @node lead cases otherwise body line c ns d more e readsLead readsBody ihLead ihBody =>
      intro t member brace
      rcases Bool.or_eq_true_iff.mp unbraced with whole | both
      · obtain ⟨isShield, wraps⟩ := Bool.and_eq_true_iff.mp whole
        have accepts : Accepts (.node lead cases otherwise body) line c _ e :=
          .node readsLead readsBody
        exact ⟨isShield, accepts.wrapped_contains wraps on ordered member⟩
      · obtain ⟨first, second⟩ := Bool.and_eq_true_iff.mp both
        obtain ⟨one, toNext⟩ := readsLead.moves
        obtain ⟨two, toLast⟩ := readsBody.moves
        have shields := readsLead.shields_append readsBody (ihLead first shows on)
          (ihBody second (readsLead.showsAll shows) (on.moves toNext)) t member brace
        cases Grammar.pick line d otherwise cases with
        | none => exact shields
        | some k =>
            have moves := toNext.trans toLast
            rw [moves.taken] at member
            exact ⟨shields.1, _, List.mem_cons_self,
              Node.ofTokens_contains k _ moves on ordered member⟩
  | last _ ih =>
      intro t member brace
      exact absurd (ih unbraced shows on t member brace).1 (by decide)
  | atLeastOne _ _ ih => exact ih unbraced shows on
  | markLine _ ih => exact ih unbraced shows on
  | intact _ ih => exact ih unbraced shows on
  | @call rule line c ns d accepts _ =>
      intro t member _
      obtain ⟨isShield, wraps⟩ := Bool.and_eq_true_iff.mp unbraced
      have accepts : Accepts (.call rule) line c ns d := .call accepts
      exact ⟨isShield, accepts.wrapped_contains wraps on ordered member⟩

end Accepts

/-! ## Blocks around a place -/

namespace Grammar

/-- The item of a block. -/
def item? : Grammar → Option Grammar
  | .seq opening (.seq (.many look (.recovering .line item)) closing) =>
      if block item = .seq opening (.seq (.many look (.recovering .line item)) closing) then
        some item
      else none
  | _ => none

theorem eq_block {g item : Grammar} (found : g.item? = some item) : g = block item := by
  unfold item? at found
  split at found
  · split at found
    · rename_i same
      cases found
      exact same.symm
    · cases found
  · cases found

/-- Whether all braces outside of nodes are those of a block. -/
def ownsBlock : Grammar → List Token.Kind → Bool
  | .seq first second, known =>
      (seq first second).unbraced true known ||
        ((seq first second).item?.any fun item => item.wraps && (items item).unbraced true []) ||
        (first.unbraced true known && second.ownsBlock (first.leaves known)) ||
        (second.unbraced true (first.leaves known) && first.ownsBlock known)
  | .choose look yes no, known => yes.ownsBlock (look.refine known) && no.ownsBlock known
  | .markLine g, known => g.ownsBlock known
  | g, known => g.unbraced true known

end Grammar

/-- Of the tokens taken, braces outside of the nodes are on both sides of a place, and it is in no
node. -/
structure Node.Around (place : Nat) (taken : List Token) (ns : List Node) : Prop where
  opened : ∃ t ∈ taken, t.kind = .lBrace ∧ t.span.stop ≤ place ∧
    ∀ n ∈ ns, n.span.contains t.span = false
  closed : ∃ t ∈ taken, t.kind = .rBrace ∧ place ≤ t.span.start ∧
    ∀ n ∈ ns, n.span.contains t.span = false
  between : ∀ n ∈ ns, n.span.stop ≤ place ∨ place ≤ n.span.start

namespace Node.Around

variable {place : Nat} {taken taken' : List Token} {ns more : List Node}

/-- A brace that is in no node is not among the tokens that nodes shield. -/
theorem not_shielded {t : Token} {all : List Node} (subset : ns ⊆ all)
    (shields : Node.ShieldsBraces true ns taken)
    (brace : t.kind = .lBrace ∨ t.kind = .rBrace)
    (outside : ∀ n ∈ all, n.span.contains t.span = false) : t ∉ taken := by
  intro member
  obtain ⟨_, n, among, contains⟩ := shields t member brace
  rw [outside n (subset among)] at contains
  cases contains

theorem second (around : Around place (taken ++ taken') (ns ++ more))
    (shields : Node.ShieldsBraces true ns taken) :
    Around place taken' more := by
  obtain ⟨⟨t, takenT, openT, low, outT⟩, ⟨u, takenU, closeU, high, outU⟩, between⟩ := around
  have among : ∀ n ∈ more, n ∈ ns ++ more := fun n member => List.mem_append_right _ member
  have notT := not_shielded (List.subset_append_left _ _) shields (Or.inl openT) outT
  have notU := not_shielded (List.subset_append_left _ _) shields (Or.inr closeU) outU
  exact ⟨⟨t, (List.mem_append.mp takenT).resolve_left notT, openT, low,
      fun n member => outT n (among n member)⟩,
    ⟨u, (List.mem_append.mp takenU).resolve_left notU, closeU, high,
      fun n member => outU n (among n member)⟩, fun n member => between n (among n member)⟩

theorem first (around : Around place (taken ++ taken') (ns ++ more))
    (shields : Node.ShieldsBraces true more taken') :
    Around place taken ns := by
  obtain ⟨⟨t, takenT, openT, low, outT⟩, ⟨u, takenU, closeU, high, outU⟩, between⟩ := around
  have among : ∀ n ∈ ns, n ∈ ns ++ more := fun n member => List.mem_append_left _ member
  have notT := not_shielded (List.subset_append_right _ _) shields (Or.inl openT) outT
  have notU := not_shielded (List.subset_append_right _ _) shields (Or.inr closeU) outU
  exact ⟨⟨t, (List.mem_append.mp takenT).resolve_right notT, openT, low,
      fun n member => outT n (among n member)⟩,
    ⟨u, (List.mem_append.mp takenU).resolve_right notU, closeU, high,
      fun n member => outU n (among n member)⟩, fun n member => between n (among n member)⟩

/-- Braces that are in no node are not shielded. -/
theorem not_unbraced (around : Around place taken ns)
    (shields : Node.ShieldsBraces true ns taken) :
    False := by
  obtain ⟨⟨t, takenT, openT, _, outT⟩, _, _⟩ := around
  exact not_shielded (List.Subset.refl _) shields (Or.inl openT) outT takenT

end Node.Around

namespace Accepts

variable {tokens : List Token} {place : Nat} {g first second item : Grammar} {line : Nat}
  {b c d e : Cursor} {ns more : List Node} {known : List Token.Kind}

/-- A symbol is the current token. -/
theorem of_symbol {k : Token.Kind} (accepts : Accepts (Grammar.symbol k) line c ns d)
    (ended : Token.Ended c.ahead) (proper : k ≠ .eof) :
    ns = [] ∧ c.current.kind = k ∧ c.Moves [c.current] d := by
  cases accepts with
  | yes holds taken =>
      have kind : c.current.kind = k := by simpa [Look.holds] using holds
      cases taken
      exact ⟨rfl, kind, Cursor.advance_moves_current ended (by rw [kind]; exact proper)⟩
  | no _ fails => cases fails

/-- The items of a block pass every place between them. -/
theorem passes_items (accepts : Accepts (.items item) line c ns d) (wraps : item.wraps = true)
    (on : c.On tokens) (ordered : Token.InOrder 0 tokens) (splits : b.Splits tokens place)
    (low : c.stopsAt ≤ place) (high : place ≤ d.startsAt)
    (between : ∀ n ∈ ns, n.span.stop ≤ place ∨ place ≤ n.span.start) :
    Passes b none (.items item) line c ns d := by
  -- in front of the place it is the first one
  have atOnce {c : Cursor} {ns : List Node} (accepts : Accepts (.items item) line c ns d)
      (on : c.On tokens) (low : c.stopsAt ≤ place) (high : place ≤ c.startsAt) :
      Passes b none (.items item) line c ns d := by
    obtain rfl := splits.eq ⟨on, low, high⟩ ordered
    exact .here accepts
  generalize shape : Grammar.items item = g at accepts
  induction accepts with
  | stop fails =>
      rw [← shape]
      refine atOnce ?_ on low high
      rw [shape]
      exact .stop fails
  | @more look item' line c ns m more d holds one rest ihOne ihRest =>
      cases shape
      cases one with
      | intact one =>
          obtain ⟨k, parts, rfl⟩ := one.wrapped wraps
          obtain ⟨segment, moves⟩ := one.moves
          rcases between _ List.mem_cons_self with before | behind
          · refine .later holds (.intact one) ?_
            refine ihRest (on.moves moves) ?_ high
              (fun n member => between n (List.mem_append_right _ member)) atOnce rfl
            by_cases nothing : segment = []
            · rw [nothing] at moves
              rw [moves.eq_of_nil]
              exact low
            · rw [← (Node.ofTokens_cover moves on ordered nothing).2]
              exact before
          · rw [Node.ofTokens_start moves on ordered] at behind
            exact atOnce (.more holds (.intact one) rest) on low behind
  | _ => cases shape

/-- A block passes every place between its braces that is in none of its items. -/
theorem passes_block (accepts : Accepts (.block item) line c ns d) (wraps : item.wraps = true)
    (unbraced : (Grammar.items item).unbraced true [] = true) (on : c.On tokens)
    (ordered : Token.InOrder 0 tokens) (splits : b.Splits tokens place)
    (around : Node.Around place (c.taken d) ns) : Passes b none (.block item) line c ns d := by
  rw [Grammar.block_eq] at accepts ⊢
  cases accepts with
  | @seq _ _ _ _ _ c₁ _ _ opening others =>
      obtain ⟨rfl, opens, toFirst⟩ := opening.of_symbol (on.ended ordered) (by decide)
      have onFirst := on.moves toFirst
      cases others with
      | @seq _ _ _ _ inner d₁ _ _ items closing =>
          obtain ⟨_, toLast⟩ := items.moves
          have onLast := onFirst.moves toLast
          obtain ⟨rfl, closes, toEnd⟩ := closing.of_symbol (onLast.ended ordered) (by decide)
          obtain ⟨⟨t, takenT, openT, low, outT⟩, ⟨u, takenU, closeU, high, outU⟩, between⟩ := around
          rw [List.nil_append, List.append_nil] at outT outU between
          have taken : c.taken d = [c.current] ++ (c₁.taken d₁ ++ [d₁.current]) := by
            rw [(toFirst.trans (toLast.trans toEnd)).taken, toLast.taken]
          have shields := items.unbraced unbraced c₁.showsAll_nil onFirst ordered
          have inner := fun t => @Node.Around.not_shielded _ inner t _ (List.Subset.refl _) shields
          have lower : c₁.stopsAt ≤ place := by
            have first : t = c.current := by
              rw [taken] at takenT
              rcases List.mem_append.mp takenT with member | member
              · exact List.mem_singleton.mp member
              · rcases List.mem_append.mp member with member | member
                · exact absurd member (inner t (Or.inl openT) outT)
                · rw [List.mem_singleton.mp member, closes] at openT
                  cases openT
            unfold Cursor.stopsAt
            rw [toFirst.before]
            rw [first] at low
            exact low
          have upper : place ≤ d₁.startsAt := by
            have last : u = d₁.current := by
              rw [taken] at takenU
              rcases List.mem_append.mp takenU with member | member
              · rw [List.mem_singleton.mp member, opens] at closeU
                cases closeU
              · rcases List.mem_append.mp member with member | member
                · exact absurd member (inner u (Or.inr closeU) outU)
                · exact List.mem_singleton.mp member
            rw [last] at high
            exact high
          exact .second opening
            (.first (items.passes_items wraps onFirst ordered splits lower upper between) closing)

/-- Where all braces outside of nodes are those of a block, a place between such braces is one that
the grammar passes. -/
theorem passes_own (accepts : Accepts g line c ns d) (owns : g.ownsBlock known = true)
    (shows : c.ShowsAll known) (on : c.On tokens) (ordered : Token.InOrder 0 tokens)
    (splits : b.Splits tokens place) (around : Node.Around place (c.taken d) ns) :
    Passes b none g line c ns d := by
  induction g generalizing line c ns d known with
  | seq first second ihFirst ihSecond =>
      have whole := accepts
      cases accepts with
      | @seq _ _ _ _ ns m more _ one two =>
          obtain ⟨_, toNext⟩ := one.moves
          have onNext := on.moves toNext
          have showsNext := one.showsAll shows
          rw [one.taken_append two] at around
          rcases Bool.or_eq_true_iff.mp owns with owns | both
          · rcases Bool.or_eq_true_iff.mp owns with owns | both
            · rcases Bool.or_eq_true_iff.mp owns with unbraced | isBlock
              · rw [← one.taken_append two] at around
                exact (around.not_unbraced (whole.unbraced unbraced shows on ordered)).elim
              · obtain ⟨item, found, both⟩ := (Option.any_eq_true _ _).mp isBlock
                obtain ⟨wraps, unbraced⟩ := Bool.and_eq_true_iff.mp both
                rw [← one.taken_append two] at around
                rw [Grammar.eq_block found] at whole ⊢
                exact whole.passes_block wraps unbraced on ordered splits around
            · obtain ⟨unbraced, owns⟩ := Bool.and_eq_true_iff.mp both
              have around := around.second (one.unbraced unbraced shows on ordered)
              exact .second one (ihSecond two owns showsNext onNext around)
          · obtain ⟨unbraced, owns⟩ := Bool.and_eq_true_iff.mp both
            have around := around.first (two.unbraced unbraced showsNext onNext ordered)
            exact .first (ihFirst one owns shows on around) two
  | choose look yes no ihYes ihNo =>
      obtain ⟨ownsYes, ownsNo⟩ := Bool.and_eq_true_iff.mp owns
      cases accepts with
      | yes holds accepts => exact .yes holds (ihYes accepts ownsYes (shows.refine holds) on around)
      | no fails accepts => exact .no fails (ihNo accepts ownsNo shows on around)
  | markLine g ih =>
      cases accepts with
      | markLine accepts => exact .markLine (ih accepts owns shows on around)
  | _ => exact (around.not_unbraced (accepts.unbraced owns shows on ordered)).elim

end Accepts

/-! ## Boundaries are passed -/

/-- Whether in nodes of the kinds that have a block all braces outside of parts are those of the
block. -/
def Grammar.blocksShow : Grammar → List Token.Kind → Bool
  | .done, _ => true
  | .take, _ => true
  | .fail _, _ => true
  | .seq first second, known => first.blocksShow known && second.blocksShow (first.leaves known)
  | .choose look yes no, known => yes.blocksShow (look.refine known) && no.blocksShow known
  | .many look item, _ => item.blocksShow look.kinds
  | .node lead cases otherwise body, known =>
      ((otherwise.toList ++ cases.map (·.2)).all (!Node.Kind.blocks.contains ·) ||
        (seq lead body).ownsBlock known) &&
        (lead.blocksShow known && body.blocksShow (lead.leaves known))
  | .last g, known => g.blocksShow known
  | .atLeastOne _ g, known => g.blocksShow known
  | .markLine g, known => g.blocksShow known
  | .recovering _ g, known => g.blocksShow known
  | .call _, _ => true

theorem Rule.grammar_blocksShow (rule : Rule) : rule.grammar.blocksShow [] = true := by
  cases rule with
  | value => decide
  | argument => decide
  | field => decide
  | ruleItem => decide

theorem Language.grammar_blocksShow (language : Language) :
    language.grammar.blocksShow [] = true := by
  cases language with
  | entity => decide
  | flow => decide

section OfBoundary

variable {tokens : List Token} {place : Nat} {line : Nat} {b c d e : Cursor} {n : Node}

/-- The proper tokens in the span of a node are those it was read from. -/
theorem Node.mem_taken_of_within {k : Node.Kind} {parts : List Node} {segment : List Token}
    {t : Token} (moves : c.Moves segment e) (on : c.On tokens) (ordered : Token.InOrder 0 tokens)
    (proper : t.kind ≠ .eof)
    (member : t ∈ Token.within (Node.ofTokens k c e parts).span tokens) : t ∈ c.taken e := by
  rw [moves.taken]
  by_cases nothing : segment = []
  · rw [nothing] at moves
    obtain ⟨among, inside⟩ := List.mem_filter.mp member
    rw [Node.ofTokens_point moves, Span.contains_iff] at inside
    have bounds : e.current.span.start ≤ t.span.start ∧ t.span.stop ≤ e.current.span.start := inside
    have := ordered.arranged.start_lt t among proper
    omega
  · have cover := @Node.ofTokens_cover tokens segment c e k parts moves on ordered nothing
    rw [moves.within_eq on ordered nothing cover.1 cover.2] at member
    refine (List.mem_append.mp member).resolve_right fun later => proper ?_
    exact ((on.moves moves).eof_of_within ordered cover.2 later).1

/-- A boundary of a node is between braces that are in none of its parts. -/
theorem Node.HasBoundary.around {k : Node.Kind} {parts : List Node} {segment : List Token}
    (boundary : (Node.ofTokens k c e parts).HasBoundary tokens place) (moves : c.Moves segment e)
    (on : c.On tokens) (ordered : Token.InOrder 0 tokens) :
    Node.Around place (c.taken e) parts := by
  have own {t : Token} (proper : t.kind ≠ .eof)
      (member : t ∈ (Node.ofTokens k c e parts).own tokens) :
      t ∈ c.taken e ∧ ∀ n ∈ parts, n.span.contains t.span = false := by
    obtain ⟨inside, outside⟩ := List.mem_filter.mp member
    refine ⟨Node.mem_taken_of_within moves on ordered proper inside, ?_⟩
    intro n among
    have := List.all_eq_true.mp outside n among
    simpa using this
  obtain ⟨_, ⟨t, ownT, openT, low⟩, ⟨u, ownU, closeU, high⟩, between⟩ := boundary
  obtain ⟨takenT, outT⟩ := own (by rw [openT]; decide) ownT
  obtain ⟨takenU, outU⟩ := own (by rw [closeU]; decide) ownU
  exact ⟨⟨t, takenT, openT, low, outT⟩, ⟨u, takenU, closeU, high, outU⟩, between⟩

/-- What passes a place in two steps passes it in one of them. -/
theorem Passes.of_seq {o : Option Node} {first second : Grammar} {ns more : List Node}
    (passes : Passes b o (.seq first second) line c (ns ++ more) e)
    (one : Accepts first line c ns d) (two : Accepts second line d more e) :
    Passes b o first line c ns d ∨ Passes b o second line d more e := by
  generalize whole : ns ++ more = all at passes
  cases passes with
  | first passes two' =>
      obtain ⟨rfl, rfl⟩ := passes.accepts.unique one
      exact Or.inl passes
  | second one' passes =>
      obtain ⟨rfl, rfl⟩ := one'.unique one
      obtain ⟨rfl, _⟩ := passes.accepts.unique two
      exact Or.inr passes

/-- **A boundary in the block of a node is a place that the grammar passes in this block.** -/
theorem Accepts.passes_of_boundary {g : Grammar} {ns : List Node} {known : List Token.Kind}
    (accepts : Accepts g line c ns d) (blocksShow : g.blocksShow known = true)
    (shows : c.ShowsAll known) (on : c.On tokens) (ordered : Token.InOrder 0 tokens)
    (splits : b.Splits tokens place) (member : n ∈ Node.subtreesOf ns)
    (boundary : n.HasBoundary tokens place) : Passes b (some n) g line c ns d := by
  induction accepts generalizing known with
  | done =>
      rw [Node.subtreesOf_nil] at member
      cases member
  | take =>
      rw [Node.subtreesOf_nil] at member
      cases member
  | seq one two ihOne ihTwo =>
      obtain ⟨first, second⟩ := Bool.and_eq_true_iff.mp blocksShow
      obtain ⟨_, moves⟩ := one.moves
      rw [Node.subtreesOf_append] at member
      rcases List.mem_append.mp member with member | member
      · exact .first (ihOne first shows on member) two
      · exact .second one (ihTwo second (one.showsAll shows) (on.moves moves) member)
  | yes holds _ ih =>
      exact .yes holds (ih (Bool.and_eq_true_iff.mp blocksShow).1 (shows.refine holds) on member)
  | no fails _ ih => exact .no fails (ih (Bool.and_eq_true_iff.mp blocksShow).2 shows on member)
  | stop =>
      rw [Node.subtreesOf_nil] at member
      cases member
  | @more look item line c ns d more e holds one rest ihOne ihRest =>
      have again : (Grammar.many look item).blocksShow [] = true := blocksShow
      obtain ⟨_, moves⟩ := one.moves
      rw [Node.subtreesOf_append] at member
      rcases List.mem_append.mp member with member | member
      · exact .item holds (ihOne blocksShow (.kinds holds) on member) rest
      · exact .later holds one (ihRest again d.showsAll_nil (on.moves moves) member)
  | @node lead cases otherwise body line c ns d more e readsLead readsBody ihLead ihBody =>
      obtain ⟨owns, both⟩ := Bool.and_eq_true_iff.mp blocksShow
      obtain ⟨first, second⟩ := Bool.and_eq_true_iff.mp both
      obtain ⟨_, toNext⟩ := readsLead.moves
      obtain ⟨_, toLast⟩ := readsBody.moves
      have inside (below : n ∈ Node.subtreesOf (ns ++ more)) :
          Passes b (some n) (.node lead cases otherwise body) line c
            (Node.wrap (Grammar.pick line d otherwise cases) c e (ns ++ more)) e := by
        rw [Node.subtreesOf_append] at below
        rcases List.mem_append.mp below with member | member
        · exact .lead (ihLead first shows on member) readsBody
        · exact .body readsLead
            (ihBody second (readsLead.showsAll shows) (on.moves toNext) member)
      cases picked : Grammar.pick line d otherwise cases with
      | none =>
          rw [picked] at member inside
          exact inside member
      | some k =>
          rw [picked] at member inside
          rw [Node.wrap, Node.subtreesOf_cons, Node.subtreesOf_nil, List.append_nil,
            Node.subtrees_eq] at member
          rcases List.mem_cons.mp member with rfl | below
          · -- the node itself has the block
            have isBlock : Node.Kind.blocks.contains k = true := by
              rw [List.contains_iff_mem]
              exact boundary.kind
            have owns := (Bool.or_eq_true_iff.mp owns).resolve_left fun none => by
              have noBlock := List.all_eq_true.mp none k (Grammar.mem_kinds_of_pick picked)
              rw [isBlock] at noBlock
              cases noBlock
            have around := boundary.around (toNext.trans toLast) on ordered
            have passes := (Accepts.seq readsLead readsBody).passes_own owns shows on ordered splits
              around
            rcases passes.of_seq readsLead readsBody with passes | passes
            · have passes : Passes b _ (.node lead cases otherwise body) line c _ e :=
                .lead passes readsBody
              rw [picked] at passes
              exact passes
            · have passes : Passes b _ (.node lead cases otherwise body) line c _ e :=
                .body readsLead passes
              rw [picked] at passes
              exact passes
          · exact inside below
  | @last g line c ns d _ ih =>
      exact .last (ih blocksShow shows on
        (Node.subtreesOf_subset (Node.getLast?_toList_subset ns) member))
  | atLeastOne _ some ih => exact .atLeastOne (ih blocksShow shows on member) some
  | markLine _ ih => exact .markLine (ih blocksShow shows on member)
  | intact _ ih => exact .intact (ih blocksShow shows on member)
  | @call rule _ c _ _ _ ih =>
      exact .call (ih rule.grammar_blocksShow c.showsAll_nil on member)

end OfBoundary

end EntityFlow
