import EntityFlow.Proofs.Grammar.Boundaries
import EntityFlow.Proofs.Grammar.Shapes
import EntityFlow.Proofs.Token.Spelling

/-!
# What nodes of accepted sources are made of

In a source without faults every node was accepted, from its first token to its last, by a shape of
its kind (`Parse.ofTokens_accepted`). Taking the shape apart then says which tokens and which parts
the node has. Here that is done for names (`Accepts.of_name`): the text of a name is not empty and
holds no brace.
-/

namespace EntityFlow

/-! ## Every node was accepted -/

/-- The parts of a node keep to a grammar for its kind, and the node is the one for what they
take. -/
def Node.Accepted (tokens : List Token) (shapes : List (Kind × Grammar)) (n : Node) : Prop :=
  ∃ g, (n.kind, g) ∈ shapes ∧ ∃ line first last, Accepts g line first n.children last ∧
    first.On tokens ∧ n = Node.ofTokens n.kind first last n.children

namespace Accepts

variable {tokens : List Token} {g : Grammar} {line : Nat} {c d : Cursor} {ns : List Node}

/-- All nodes of something accepted were accepted. -/
theorem allAccepted {known : List (Node.Kind × Grammar)} (rules : Rule.shapes ⊆ known)
    (accepts : Accepts g line c ns d) (shapes : g.shapes ⊆ known) (on : c.On tokens) :
    ∀ n ∈ Node.subtreesOf ns, n.Accepted tokens known := by
  have none : ∀ n ∈ Node.subtreesOf [], n.Accepted tokens known := by
    rw [Node.subtreesOf_nil]
    exact fun n member => absurd member List.not_mem_nil
  induction accepts with
  | done => exact none
  | take => exact none
  | seq one _ ihOne ihTwo =>
      obtain ⟨_, moves⟩ := one.moves
      obtain ⟨shapesOne, shapesTwo⟩ := List.append_subset.mp shapes
      exact Node.forall_mem_subtreesOf_append.mpr
        ⟨ihOne shapesOne on, ihTwo shapesTwo (on.moves moves)⟩
  | yes _ _ ih => exact ih (List.append_subset.mp shapes).1 on
  | no _ _ ih => exact ih (List.append_subset.mp shapes).2 on
  | stop => exact none
  | more _ one _ ihOne ihRest =>
      obtain ⟨_, moves⟩ := one.moves
      exact Node.forall_mem_subtreesOf_append.mpr
        ⟨ihOne shapes on, ihRest shapes (on.moves moves)⟩
  | @node lead cases otherwise body line c ns d more e acceptsLead acceptsBody ihLead ihBody =>
      obtain ⟨shapesNode, shapesBoth⟩ := List.append_subset.mp shapes
      obtain ⟨shapesLead, shapesBody⟩ := List.append_subset.mp shapesBoth
      obtain ⟨_, moves⟩ := acceptsLead.moves
      have below := Node.forall_mem_subtreesOf_append.mpr
        ⟨ihLead shapesLead on, ihBody shapesBody (on.moves moves)⟩
      obtain ⟨way, branch, readsWay⟩ :=
        Grammar.branches_sound cases otherwise (acceptsBody.reads 1 [])
      have acceptsParts : Accepts (.seq lead way) line c (ns ++ more) e :=
        .seq acceptsLead (readsWay.accepts Nat.one_pos rfl)
      cases picked : Grammar.pick line d otherwise cases with
      | none => exact below
      | some k =>
          refine Node.forall_mem_subtreesOf_singleton.mpr ⟨?_, below⟩
          refine ⟨.seq lead way, shapesNode ?_, line, c, e, acceptsParts, on, rfl⟩
          rw [picked] at branch
          exact List.mem_filterMap.mpr ⟨_, branch, rfl⟩
  | @last g line c ns d _ ih =>
      intro n member
      exact ih shapes on n (Node.subtreesOf_subset (Node.getLast?_toList_subset ns) member)
  | atLeastOne _ _ ih => exact ih shapes on
  | markLine _ ih => exact ih shapes on
  | intact _ ih => exact ih shapes on
  | @call rule _ _ _ _ _ ih => exact ih (List.Subset.trans rule.shapes_subset rules) on

end Accepts

/-- In a source without faults every node was accepted. -/
theorem Parse.ofTokens_accepted (language : Language) (limit : Nat) {tokens : List Token}
    (ended : Token.Ended tokens) (faultless : (Parse.ofTokens language limit tokens).faults = []) :
    ∀ n ∈ (Parse.ofTokens language limit tokens).tree.subtrees,
      n.Accepted tokens language.shapes := by
  obtain ⟨ns, last, reads, _, equal⟩ := Parse.ofTokens_reads language limit ended
  rw [equal] at faultless ⊢
  have accepts := reads.accepts (by omega) faultless
  refine Node.forall_mem_subtrees.mpr ⟨?_, ?_⟩
  · exact ⟨language.grammar, List.mem_cons_self, 0, _, _, accepts, Cursor.on_start tokens, rfl⟩
  · refine accepts.allAccepted ?_ ?_ (Cursor.on_start tokens)
    · exact List.subset_cons_of_subset _ (List.subset_append_right _ _)
    · exact List.subset_cons_of_subset _ (List.subset_append_left _ _)

/-! ## Single tokens -/

namespace Accepts

variable {line : Nat} {c d : Cursor} {ns : List Node}

theorem of_take (accepts : Accepts .take line c ns d) (ended : Token.Ended c.ahead)
    (proper : c.Proper) : ns = [] ∧ c.Moves [c.current] d := by
  cases accepts
  exact ⟨rfl, Cursor.advance_moves_current ended proper⟩

theorem of_tree {k : Node.Kind} {g : Grammar} (accepts : Accepts (Grammar.tree k g) line c ns d) :
    ∃ parts, Accepts g line c parts d ∧ ns = [Node.ofTokens k c d parts] := by
  cases accepts with
  | node lead body =>
      cases lead
      exact ⟨_, body, rfl⟩

theorem of_guarded {look : Look} {expected : Expectation} {g : Grammar}
    (accepts : Accepts (Grammar.guarded look expected g) line c ns d) :
    look.holds line c = true ∧ Accepts g line c ns d := by
  cases accepts with
  | yes holds inner => exact ⟨holds, inner⟩
  | no _ fails => cases fails

theorem of_opt {look : Look} {g : Grammar} (accepts : Accepts (Grammar.opt look g) line c ns d) :
    (look.holds line c = true ∧ Accepts g line c ns d) ∨
      (look.holds line c = false ∧ ns = [] ∧ d = c) := by
  cases accepts with
  | yes holds inner => exact Or.inl ⟨holds, inner⟩
  | no fails nothing =>
      cases nothing
      exact Or.inr ⟨fails, rfl, rfl⟩

/-- A leaf is a node for the current token. -/
theorem of_leaf {k : Node.Kind} (accepts : Accepts (Grammar.leaf k) line c ns d)
    (ended : Token.Ended c.ahead) (proper : c.Proper) :
    ∃ n : Node, ns = [n] ∧ n.kind = k ∧ n.text = Node.shown k [c.current] ∧
      c.Moves [c.current] d := by
  obtain ⟨parts, taken, equal⟩ := accepts.of_tree
  obtain ⟨_, moves⟩ := taken.of_take ended proper
  exact ⟨_, equal, rfl, Node.ofTokens_shown moves, moves⟩

end Accepts

/-! ## Names -/

/-- The tokens that names are made of. -/
def Token.InName (t : Token) : Prop := t.kind = .word ∨ t.kind = .dot

namespace Accepts

variable {line : Nat} {c d : Cursor} {ns : List Node}

/-- The rest of a name after its first word. -/
theorem of_namePoints
    (accepts : Accepts (.many (.and (Grammar.sees .dot) (.and (.kind 1 .word) .adjacent))
      (.seq .take .take)) line c ns d) (ended : Token.Ended c.ahead) :
    ns = [] ∧ ∃ segment, c.Moves segment d ∧ ∀ t ∈ segment, t.InName := by
  generalize shape : Grammar.many _ _ = g at accepts
  induction accepts with
  | stop => exact ⟨rfl, [], .refl _, fun t member => absurd member List.not_mem_nil⟩
  | @more look item line c ns d rest e holds one _ _ ih =>
      cases shape
      simp only [Look.holds, Grammar.sees, Bool.and_eq_true, beq_iff_eq, Cursor.nth_zero] at holds
      obtain ⟨point, word, -⟩ := holds
      cases one with
      | @seq _ _ _ _ _ middle _ _ first second =>
          obtain ⟨rfl, toMiddle⟩ := first.of_take ended (by simp [Cursor.Proper, point])
          cases first
          have current : c.advance.current.kind = .word := by
            rw [← Cursor.nth_zero, Cursor.nth_advance]
            exact word
          have endedMiddle := (toMiddle.ended ended).2
          obtain ⟨rfl, toNext⟩ := second.of_take endedMiddle (by simp [Cursor.Proper, current])
          obtain ⟨rfl, segment, toEnd, known⟩ := ih (toNext.ended endedMiddle).2 rfl
          refine ⟨rfl, _, (toMiddle.trans toNext).trans toEnd, fun t member => ?_⟩
          rcases List.mem_append.mp member with pair | later
          · rcases List.mem_cons.mp pair with rfl | other
            · exact Or.inr point
            · rw [List.mem_singleton.mp other]
              exact Or.inl current
          · exact known t later
  | _ => cases shape

/-- A name is one node for words and points, the first one a word. -/
theorem of_name {k : Node.Kind} (accepts : Accepts (Grammar.name k) line c ns d)
    (ended : Token.Ended c.ahead) :
    ∃ n : Node, ns = [n] ∧ n.kind = k ∧ ∃ t segment, t.kind = .word ∧
      (∀ u ∈ segment, u.InName) ∧ n.text = Node.shown k (t :: segment) ∧
      c.Moves (t :: segment) d := by
  obtain ⟨parts, guarded, equal⟩ := accepts.of_tree
  obtain ⟨sees, inner⟩ := guarded.of_guarded
  have word : c.current.kind = .word := by simpa [Look.holds, Grammar.sees] using sees
  cases inner with
  | seq first points =>
      obtain ⟨_, toNext⟩ := first.of_take ended (by simp [Cursor.Proper, word])
      obtain ⟨_, segment, toEnd, known⟩ := points.of_namePoints (toNext.ended ended).2
      have moves := toNext.trans toEnd
      exact ⟨_, equal, rfl, c.current, segment, word, known, Node.ofTokens_shown moves, moves⟩

end Accepts

/-! ## The text of names -/

/-- A text without braces. -/
def Unbraced (s : String) : Prop := '\x7b' ∉ s.toList ∧ '\x7d' ∉ s.toList

theorem Token.InName.unbraced {t : Token} (known : t.InName) (spelled : t.Spelled) :
    Unbraced t.text := by
  rcases known with word | dot
  · have continues := (spelled.word word).2
    exact ⟨fun member => absurd (continues _ member) (by decide),
      fun member => absurd (continues _ member) (by decide)⟩
  · have text : t.text = "." := by
      rw [spelled.symbol (by rw [dot]; decide), dot]
      rfl
    rw [text]
    exact ⟨by decide, by decide⟩

theorem Unbraced.empty : Unbraced "" := ⟨by decide, by decide⟩

theorem Unbraced.append {s t : String} (front : Unbraced s) (back : Unbraced t) :
    Unbraced (s ++ t) := by
  unfold Unbraced at *
  simp only [String.toList_append, List.mem_append, not_or]
  exact ⟨⟨front.1, back.1⟩, front.2, back.2⟩

theorem Node.unbraced_shown (k : Kind) {segment : List Token}
    (each : ∀ t ∈ segment, Unbraced t.text) : Unbraced (Node.shown k segment) := by
  induction segment with
  | nil => exact .empty
  | cons t rest ih =>
      rw [← List.singleton_append, Node.shown_append]
      refine Unbraced.append ?_ (ih fun u member => each u (List.mem_cons_of_mem _ member))
      unfold Node.shown
      rw [List.filter_cons]
      split
      · simpa [String.join] using each t List.mem_cons_self
      · exact .empty

/-- A token that is no documentation shows its text. -/
theorem Node.shown_singleton (k : Kind) {t : Token} (plain : t.kind ≠ .javadoc) :
    Node.shown k [t] = t.text := by
  simp [Node.shown, plain, String.join]

theorem Node.shown_congr {k k' : Kind} (plain : k.isDocumentation = false)
    (plain' : k'.isDocumentation = false) (segment : List Token) :
    Node.shown k segment = Node.shown k' segment := by
  unfold Node.shown
  rw [plain, plain']

namespace Cursor.Moves

variable {first last : Cursor} {segment : List Token}

theorem spelled (moves : first.Moves segment last) (all : ∀ t ∈ first.ahead, t.Spelled) :
    ∀ t ∈ last.ahead, t.Spelled := by
  rw [moves.ahead] at all
  exact fun t member => all t (List.mem_append_right _ member)

theorem mem_ahead_of_mem (moves : first.Moves segment last) {t : Token} (member : t ∈ segment) :
    t ∈ first.ahead := by
  rw [moves.ahead]
  exact List.mem_append_left _ member

end Cursor.Moves

namespace Accepts

variable {line : Nat} {c d : Cursor} {ns : List Node}

/-- A symbol shows its character. -/
theorem of_symbol_shown {k : Token.Kind} (accepts : Accepts (Grammar.symbol k) line c ns d)
    (ended : Token.Ended c.ahead) (spelled : ∀ t ∈ c.ahead, t.Spelled) (visible : k.symbol ≠ "") :
    ns = [] ∧ c.Moves [c.current] d ∧ ∀ kind, Node.shown kind [c.current] = k.symbol := by
  have proper : k ≠ .eof ∧ k ≠ .javadoc := by
    constructor <;> rintro rfl <;> exact visible rfl
  obtain ⟨nothing, current, moves⟩ := accepts.of_symbol ended proper.1
  refine ⟨nothing, moves, fun kind => ?_⟩
  have member := moves.mem_ahead_of_mem List.mem_cons_self
  rw [Node.shown_singleton kind (by rw [current]; exact proper.2),
    (spelled _ member).symbol (by rw [current]; exact visible), current]

/-- A name shows a text without braces. -/
theorem of_name_unbraced {k : Node.Kind} (accepts : Accepts (Grammar.name k) line c ns d)
    (ended : Token.Ended c.ahead) (spelled : ∀ t ∈ c.ahead, t.Spelled) :
    ∃ n : Node, ns = [n] ∧ n.kind = k ∧ Unbraced n.text ∧ ∃ segment, c.Moves segment d ∧
      n.text = Node.shown k segment ∧ segment ≠ [] := by
  obtain ⟨n, equal, kind, t, more, word, inName, text, moves⟩ := accepts.of_name ended
  refine ⟨n, equal, kind, ?_, t :: more, moves, text, List.cons_ne_nil _ _⟩
  rw [text]
  refine Node.unbraced_shown k fun u member => ?_
  have known : u.InName := by
    rcases List.mem_cons.mp member with rfl | later
    · exact Or.inl word
    · exact inName u later
  exact known.unbraced (spelled u (moves.mem_ahead_of_mem member))

end Accepts

end EntityFlow
