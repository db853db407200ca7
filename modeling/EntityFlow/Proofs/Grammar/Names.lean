import EntityFlow.Proofs.Grammar.Limits
import EntityFlow.Proofs.Grammar.Placement
import EntityFlow.Proofs.Token.Spelling

/-!
# Names are words

A construct that is called by a name has a part for it, and the name begins with a word, so its text
is not empty (`Parse.ofTokens_named`). That the grammar of a name asks for a word before it takes
anything is checked on the shapes of the nodes (`Grammar.spells`).
-/

namespace EntityFlow

/-- The kind of the part by which a node of a kind is called. -/
def Node.Kind.calledBy : Node.Kind → Option Node.Kind
  | .entity => some .entityName
  | .event => some .eventName
  | .input => some .inputName
  | .enum => some .enumName
  | .relationships => some .relationshipType
  | .service | .serviceLegacy => some .serviceName
  | .serviceMethod => some .serviceMethodName
  | .fieldType => some .id
  | .flow => some .flowName
  | .flowSystem => some .flowSystemName
  | .flowStart => some .flowStartName
  | _ => none

/-- That a node that is called by a name has one, and that it is not empty. -/
def Node.Named (n : Node) : Prop :=
  ∀ k, n.kind.calledBy = some k → ∃ name, n.child k = some name ∧ name.text ≠ ""

theorem Node.Named.text_ne_empty {n name : Node} {k : Kind} (named : n.Named)
    (called : n.kind.calledBy = some k) (found : n.child k = some name) : name.text ≠ "" := by
  obtain ⟨_, found', some⟩ := named k called
  cases found.symm.trans found'
  exact some

namespace Grammar

/-- Whether a grammar takes a word before anything else. -/
def takesWord : Grammar → Bool
  | .choose look (.seq .take _) (.fail _) => look == .kind 0 .word
  | _ => false

/-- Whether every node of a kind that a grammar yields begins with a word. -/
def spells (k : Node.Kind) : Grammar → Bool
  | .done => true
  | .take => true
  | .fail _ => true
  | .seq first second => first.spells k && second.spells k
  | .choose _ yes no => yes.spells k && no.spells k
  | .many _ item => item.spells k
  | .node lead cases otherwise body =>
      if lead = .done ∧ cases = [] ∧ otherwise = some k then body.takesWord
      else !(Grammar.node lead cases otherwise body).yields.contains k
  | .last g => g.spells k
  | .atLeastOne _ g => g.spells k
  | .markLine g => g.spells k
  | .recovering _ g => k != .error && g.spells k
  | .call rule => !rule.yields.contains k

end Grammar

theorem Language.shapes_called (language : Language) :
    (language.shapes.all fun shape => shape.1.calledBy.all fun k =>
      shape.2.ensures k && shape.2.spells k) = true := by
  cases language with
  | entity => decide
  | flow => decide

namespace Reads

variable {tokens : List Token} {limit line : Nat} {g : Grammar} {r next : Reading} {ns : List Node}

/-- What a grammar takes that asks for a word begins with one. -/
theorem exists_word (ordered : Token.InOrder 0 tokens) (on : r.cursor.On tokens)
    (takesWord : g.takesWord = true) (reads : Reads limit g line r (.nodes ns next)) :
    ∃ t ∈ tokens, t.kind = .word ∧ ∃ more, r.cursor.Moves (t :: more) next.cursor := by
  unfold Grammar.takesWord at takesWord
  split at takesWord
  · rename_i look rest expected
    rw [beq_iff_eq] at takesWord
    subst takesWord
    cases reads with
    | no _ fails => cases fails
    | yes holds reads =>
        have word : r.cursor.current.kind = .word := by simpa [Look.holds] using holds
        have step := Cursor.advance_moves_current (on.ended ordered) (by simp [word])
        obtain ⟨_, _, one, _, two, _⟩ := reads.of_seq_nodes
        cases one
        obtain ⟨more, rest⟩ := two.moves
        obtain ⟨front, back, split, _⟩ := on.split ordered
        refine ⟨r.cursor.current, ?_, word, more, step.trans rest⟩
        rw [split]
        simp
  · cases takesWord

/-- A node that begins with a word has a text. -/
theorem text_ofTokens {first last : Cursor} {t : Token} {more : List Token}
    (moves : first.Moves (t :: more) last) (word : t.kind = .word) (some : t.text ≠ "")
    (k : Node.Kind) (parts : List Node) : (Node.ofTokens k first last parts).text ≠ "" := by
  have shown : (k.isDocumentation || t.kind != .javadoc) = true := by simp [word]
  show String.join (((first.taken last).filter fun t =>
    k.isDocumentation || t.kind != .javadoc).map (·.text)) ≠ ""
  rw [moves.taken, List.filter_cons, if_pos shown, List.map_cons, String.join_cons]
  intro empty
  exact some (String.append_eq_empty_iff.mp empty).1

/-- The nodes of a kind for names that are read have a text. -/
theorem text_ne_empty {k : Node.Kind} (ordered : Token.InOrder 0 tokens)
    (spelled : ∀ t ∈ tokens, t.Spelled) (reads : Reads limit g line r (.nodes ns next))
    (on : r.cursor.On tokens) (spells : g.spells k = true) :
    ∀ n ∈ ns, n.kind = k → n.text ≠ "" := by
  induction reads using Reads.succeeds with
  | done => simp
  | take => simp
  | seq one two ihOne ihTwo =>
      obtain ⟨_, toNext⟩ := one.moves
      obtain ⟨spellsOne, spellsTwo⟩ := Bool.and_eq_true_iff.mp spells
      exact List.forall_mem_append.mpr ⟨ihOne on spellsOne, ihTwo (on.moves toNext) spellsTwo⟩
  | yes _ _ ih => exact ih on (Bool.and_eq_true_iff.mp spells).1
  | no _ _ ih => exact ih on (Bool.and_eq_true_iff.mp spells).2
  | stop => simp
  | more _ one _ ihOne ihRest =>
      obtain ⟨_, toNext⟩ := one.moves
      exact List.forall_mem_append.mpr ⟨ihOne on spells, ihRest (on.moves toNext) spells⟩
  | @node lead cases otherwise body line r ns next more last readsLead readsBody _ _ =>
      rw [Grammar.spells] at spells
      split at spells
      · rename_i plain
        obtain ⟨rfl, rfl, rfl⟩ := plain
        cases readsLead
        obtain ⟨t, member, word, rest, moves⟩ := readsBody.exists_word ordered on spells
        have some := ((spelled t member).word word).1
        intro n member _
        rw [List.mem_singleton.mp member]
        exact text_ofTokens moves word some k _
      · -- no node of this kind comes out of it
        intro n member isKind
        have yields := (Reads.node readsLead readsBody).kind_mem_yields n member
        rw [isKind] at yields
        simp [yields] at spells
  | @last g line r ns next _ ih =>
      intro n member
      exact ih on spells n (Node.getLast?_toList_subset ns member)
  | atLeastOne _ _ ih => exact ih on spells
  | markLine _ ih => exact ih on spells
  | intact _ ih => exact ih on (Bool.and_eq_true_iff.mp spells).2
  | recovered =>
      intro n member isKind
      rw [List.mem_singleton.mp member] at isKind
      have other := (Bool.and_eq_true_iff.mp spells).1
      rw [← isKind] at other
      cases other
  | @call rule line r ns next reads _ =>
      have called : Reads limit (.call rule) line r _ := .call reads
      intro n member isKind
      have yields : n.kind ∈ rule.yields := called.kind_mem_yields n member
      rw [isKind] at yields
      simp [yields, Grammar.spells] at spells

end Reads

/-- **What is called by a name has one, and it is not empty.** -/
theorem Parse.ofTokens_named (language : Language) (limit : Nat) {tokens : List Token}
    (ordered : Token.InOrder 0 tokens) (spelled : ∀ t ∈ tokens, t.Spelled) :
    (Parse.ofTokens language limit tokens).tree.Everywhere Node.Named := by
  obtain ⟨_, _, shaped⟩ := Parse.ofTokens_shaped language limit ordered.ended
  intro n member k called
  rcases shaped n member with ⟨isError, _⟩ | ⟨g, shape, line, r, next, reads, ⟨_, moves⟩, _⟩
  · rw [isError] at called
    cases called
  · have checked := List.all_eq_true.mp language.shapes_called _ shape
    rw [called] at checked
    obtain ⟨ensures, spells⟩ := Bool.and_eq_true_iff.mp checked
    obtain ⟨part, inside, isKind⟩ := reads.exists_of_ensures ensures
    obtain ⟨name, found⟩ := Option.isSome_iff_exists.mp
      (List.find?_isSome.mpr ⟨part, inside, beq_iff_eq.mpr isKind⟩ : (n.child k).isSome = true)
    have isName := List.find?_some found
    have on := (Cursor.on_start tokens).moves moves
    exact ⟨name, found, reads.text_ne_empty ordered spelled on spells name
      (List.mem_of_find?_eq_some found) (by simpa using isName)⟩

end EntityFlow
