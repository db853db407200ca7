import Mathlib.Tactic.TFAE
import EntityFlow.Proofs.Document.FlowReports
import EntityFlow.Proofs.Document.Strictness
import EntityFlow.Proofs.Grammar.Causes

/-!
# Explanations of diagnostics

A document reports error nodes only (`Model.exists_error`), in words of its own, and a report takes
the message of the first fault in its range instead (`explain`). Every error node has its fault, but
that can be the fault of the first token behind the range (`Parse.exists_cause`), and then the words
of the document stay (`compile_explains`). So it is if the last item of a block breaks at the brace
on the line below: the item is reported as unrecognized, and the fault on its own
(`compile_explains_brace`).
-/

namespace EntityFlow

/-! ## Messages -/

theorem Fault.head?_choiceMessage (f : Fault) (what : String) :
    (f.choiceMessage what).toList.head? ≠ some 's' := by
  unfold Fault.choiceMessage
  split
  all_goals simp [String.toList_append]

/-- A fault says what was expected, or that something is unexpected or not closed. -/
theorem Fault.head?_message (f : Fault) : f.message.toList.head? ≠ some 's' := by
  unfold Fault.message
  cases f.expected with
  | declaration => exact f.head?_choiceMessage _
  | flowItem => exact f.head?_choiceMessage _
  | _ => simp [String.toList_append]

theorem Reason.head?_message_unrecognized (context : Context) :
    (unrecognized context).message.toList.head? = some 's' := by
  show ("skipped unrecognized input in " ++ context.name).toList.head? = some 's'
  rw [String.toList_append, List.head?_append]
  rfl

/-- No fault has the message of an error node. -/
theorem Fault.message_ne_unrecognized (f : Fault) (context : Context) :
    f.message ≠ (Reason.unrecognized context).message := by
  intro same
  have head := f.head?_message
  rw [same, Reason.head?_message_unrecognized] at head
  exact head rfl

/-! ## Ranges -/

/-- The place of a remark. -/
def Remark.place (r : Remark) : ℕ ×ₗ ℕ := toLex (r.line, r.column)

namespace Diagnostic

theorem notAfter_iff {line column line' column' : Nat} :
    notAfter line column line' column' = true ↔ toLex (line, column) ≤ toLex (line', column') := by
  unfold notAfter
  rw [Prod.Lex.toLex_le_toLex]
  simp

/-- Where the construct starts. -/
def place (d : Diagnostic) : ℕ ×ₗ ℕ := toLex (d.line, d.column)

/-- Where the construct ends. -/
def endPlace (d : Diagnostic) : ℕ ×ₗ ℕ := toLex (d.endLine, d.endColumn)

/-- `d.Covers r`: the place of the remark lies in the range of the construct, its ends included. -/
def Covers (d : Diagnostic) (r : Remark) : Prop := d.place ≤ r.place ∧ r.place ≤ d.endPlace

theorem coversRemark_iff {d : Diagnostic} {r : Remark} : d.coversRemark r = true ↔ d.Covers r := by
  unfold coversRemark covers
  rw [Bool.and_eq_true, notAfter_iff, notAfter_iff]
  exact Iff.rfl

/-- Whether a diagnostic covers the place of a fault. -/
def coversFault (d : Diagnostic) (f : Fault) : Bool := d.covers f.line f.column

/-- The diagnostic of a node covers the faults in the range of the node. -/
theorem coversFault_ofNode {n : Node} {context : Context} {f : Fault} :
    (ofNode n context).coversFault f = true ↔ n.Holds f :=
  coversRemark_iff (r := f.remark)

theorem message_ofNode {n : Node} (context : Context) (isError : n.kind = .error) :
    (ofNode n context).message = (Reason.unrecognized context).message := by
  rw [ofNode_error context isError]
  rfl

/-! ## Explaining -/

/-- A diagnostic takes the message of a remark that it covers, or it covers none and stays. -/
theorem explainedBy_cases (remarks : List Remark) (d : Diagnostic) :
    (∃ r ∈ remarks, d.coversRemark r = true ∧ (d.explainedBy remarks).message = r.message) ∨
      (∀ r ∈ remarks, ¬ d.coversRemark r = true) ∧ d.explainedBy remarks = d := by
  unfold explainedBy
  cases found : remarks.find? d.coversRemark with
  | some r => exact Or.inl ⟨r, List.mem_of_find?_eq_some found, List.find?_some found, rfl⟩
  | none => exact Or.inr ⟨List.find?_eq_none.mp found, rfl⟩

/-- The same for the remarks on faults. -/
theorem explainedBy_faults_cases (faults : List Fault) (d : Diagnostic) :
    (∃ f ∈ faults, d.coversFault f = true ∧
        (d.explainedBy (faults.map Fault.remark)).message = f.message) ∨
      (∀ f ∈ faults, ¬ d.coversFault f = true) ∧ d.explainedBy (faults.map Fault.remark) = d := by
  rcases d.explainedBy_cases (faults.map Fault.remark) with
    ⟨r, remarked, covers, message⟩ | ⟨none, same⟩
  · obtain ⟨f, recorded, rfl⟩ := List.mem_map.mp remarked
    exact Or.inl ⟨f, recorded, covers, message⟩
  · exact Or.inr ⟨fun f recorded => none f.remark (List.mem_map_of_mem recorded), same⟩

end Diagnostic

theorem mem_explain {remarks : List Remark} {ds : List Diagnostic} {d : Diagnostic} :
    d ∈ explain remarks ds ↔ (∃ d' ∈ ds, d'.explainedBy remarks = d) ∨
      ∃ r ∈ remarks, ds.any (·.coversRemark r) = false ∧ .ofRemark r = d := by
  simp only [explain, List.mem_append, List.mem_map, List.mem_filter, Bool.not_eq_true', and_assoc]

/-! ## Reported nodes -/

/-- What a document reports are error nodes of its tree. -/
theorem Model.exists_error (language : Language) (limit : Nat) {tokens : List Token}
    (ended : Token.Ended tokens) {d : Diagnostic}
    (member : d ∈ (ofTree language (Parse.ofTokens language limit tokens).tree).diagnostics) :
    ∃ n ∈ (Parse.ofTokens language limit tokens).tree.subtrees, ∃ context,
      n.kind = .error ∧ d = .ofNode n context := by
  obtain ⟨o, among, rfl⟩ : ∃ o : Omission, o.node ∈ Node.errorsOf
      [(Parse.ofTokens language limit tokens).tree] ∧ o.diagnostic = d := by
    obtain ⟨_, _, shaped⟩ := Parse.ofTokens_shaped language limit ended
    cases language with
    | entity =>
        have accounts := EntityBuilder.accounts_omissions shaped rfl
        have reported : d ∈ (EntityBuilder.ofTree _).diagnostics := member
        rw [EntityBuilder.diagnostics_ofTree] at reported
        obtain ⟨o, left, rfl⟩ := List.mem_map.mp reported
        exact ⟨o, accounts.mem_errorsOf o left, rfl⟩
    | flow =>
        have lists := FlowBuilder.lists_omissions shaped rfl
        have reported : d ∈ (FlowBuilder.ofTree _).diagnostics := member
        rw [FlowBuilder.diagnostics_ofTree] at reported
        obtain ⟨o, left, rfl⟩ := List.mem_map.mp reported
        exact ⟨o, lists.mem_errorsOf o left, rfl⟩
  rw [Node.errorsOf, Node.subtreesOf_cons, Node.subtreesOf_nil, List.append_nil] at among
  obtain ⟨inside, isError⟩ := List.mem_filter.mp among
  exact ⟨o.node, inside, o.context, beq_iff_eq.mp isError, rfl⟩

/-! ## Compilation -/

namespace Parse

variable {language : Language} {p : Parse} {d : Diagnostic}

/-- A diagnostic of a model has the message of a recorded fault, or the document reports it and it
covers no fault. -/
theorem message_cases (member : d ∈ (p.model language).diagnostics) :
    (∃ f ∈ p.faults, d.message = f.message) ∨
      d ∈ (Model.ofTree language p.tree).diagnostics ∧
        ∀ f ∈ p.faults, ¬ d.coversFault f = true := by
  rcases mem_explain.mp member with ⟨d', reported, rfl⟩ | ⟨r, remarked, _, rfl⟩
  · rcases d'.explainedBy_faults_cases p.faults with ⟨f, recorded, _, message⟩ | ⟨none, same⟩
    · exact Or.inl ⟨f, recorded, message⟩
    · rw [same]
      exact Or.inr ⟨reported, none⟩
  · obtain ⟨f, recorded, rfl⟩ := List.mem_map.mp remarked
    exact Or.inl ⟨f, recorded, rfl⟩

/-- What is reported and covers no fault stays among the diagnostics of the model. -/
theorem mem_diagnostics_of_uncovered (reported : d ∈ (Model.ofTree language p.tree).diagnostics)
    (none : ∀ f ∈ p.faults, ¬ d.coversFault f = true) : d ∈ (p.model language).diagnostics := by
  refine mem_explain.mpr (Or.inl ⟨d, reported, ?_⟩)
  rcases d.explainedBy_faults_cases p.faults with ⟨f, recorded, covers, _⟩ | ⟨_, same⟩
  · exact absurd covers (none f recorded)
  · exact same

end Parse

/-- **Diagnostics are explained by the faults in their ranges.** The model of a source that can be
cut into tokens has only messages of recorded faults if and only if every diagnostic of the document
covers one of them, and if and only if no message is that of an error node. While fewer faults are
recorded than are wanted, any other diagnostic is that of an error node whose range holds no fault,
and the fault for which it was given up is that of the first token behind it. -/
theorem compile_explains (language : Language) (limit : Nat) {source : String}
    {tokens : List Token} (lexed : Token.lex source = .ok tokens) :
    ∃ p m, Parse.ofSource? language limit source = .ok p ∧
      compile language ⟨false, limit⟩ source = .ok m ∧
      List.TFAE [
        ∀ d ∈ m.diagnostics, ∃ f ∈ p.faults, d.message = f.message,
        ∀ d ∈ m.diagnostics, ∀ context, d.message ≠ (Reason.unrecognized context).message,
        ∀ d ∈ (Model.ofTree language p.tree).diagnostics,
          ∃ f ∈ p.faults, d.coversFault f = true] ∧
      (p.faults.length < max limit 1 →
        ∀ d ∈ m.diagnostics, (∃ f ∈ p.faults, d.message = f.message) ∨
          ∃ n ∈ p.tree.subtrees, ∃ context, n.kind = .error ∧ d = .ofNode n context ∧
            (∀ f ∈ p.faults, ¬ n.Holds f) ∧
            ∃ f ∈ p.faults, (Token.behind n.span tokens).head? = some f.found ∧
              n.span.endPlace < f.place) := by
  have ended := (Token.lex_inOrder lexed).ended
  refine ⟨_, _, Parse.ofSource?_of_lex lexed language limit, compile_plain lexed language limit,
    ?_, ?_⟩
  · tfae_have 1 → 2 := by
      intro explained d member context same
      obtain ⟨f, _, message⟩ := explained d member
      exact f.message_ne_unrecognized context (message.symm.trans same)
    tfae_have 2 → 3 := by
      intro proper d reported
      by_contra uncovered
      -- what covers no fault keeps its words, and these are the words for error nodes
      have none : ∀ f ∈ _, ¬ d.coversFault f = true := fun f recorded covers =>
        uncovered ⟨f, recorded, covers⟩
      obtain ⟨n, _, context, isError, rfl⟩ := Model.exists_error language limit ended reported
      exact proper _ (Parse.mem_diagnostics_of_uncovered reported none) context
        (Diagnostic.message_ofNode context isError)
    tfae_have 3 → 1 := by
      intro covered d member
      rcases Parse.message_cases member with explained | ⟨reported, none⟩
      · exact explained
      · obtain ⟨f, recorded, covers⟩ := covered d reported
        exact absurd covers (none f recorded)
    tfae_finish
  · intro fewer d member
    refine (Parse.message_cases member).imp_right ?_
    rintro ⟨reported, none⟩
    obtain ⟨n, inside, context, isError, rfl⟩ := Model.exists_error language limit ended reported
    have apart : ∀ f ∈ (Parse.ofTokens language limit tokens).faults, ¬ n.Holds f :=
      fun f recorded holds => none f recorded (Diagnostic.coversFault_ofNode.mpr holds)
    refine ⟨n, inside, context, isError, rfl, apart, ?_⟩
    obtain ⟨f, recorded, cause⟩ := Parse.exists_cause language limit lexed fewer n inside isError
    -- no fault lies in the range, so the cause is the one behind
    cases cause with
    | inside held => exact absurd held (apart f recorded)
    | behind next after => exact ⟨f, recorded, next, after⟩

/-- An entity with an item that breaks at its first token and one that breaks at the brace below. -/
theorem compile_explains_items :
    ∃ tokens, Token.lex "entity A \x7b\n  1\n  a\n\x7d\n" = .ok tokens ∧
      ∃ p m, Parse.ofSource? .entity 10 "entity A \x7b\n  1\n  a\n\x7d\n" = .ok p ∧
      compile .entity ⟨false, 10⟩ "entity A \x7b\n  1\n  a\n\x7d\n" = .ok m ∧
      List.TFAE [
        ∀ d ∈ m.diagnostics, ∃ f ∈ p.faults, d.message = f.message,
        ∀ d ∈ m.diagnostics, ∀ context, d.message ≠ (Reason.unrecognized context).message,
        ∀ d ∈ (Model.ofTree .entity p.tree).diagnostics,
          ∃ f ∈ p.faults, d.coversFault f = true] ∧
      (p.faults.length < max 10 1 →
        ∀ d ∈ m.diagnostics, (∃ f ∈ p.faults, d.message = f.message) ∨
          ∃ n ∈ p.tree.subtrees, ∃ context, n.kind = .error ∧ d = .ofNode n context ∧
            (∀ f ∈ p.faults, ¬ n.Holds f) ∧
            ∃ f ∈ p.faults, (Token.behind n.span tokens).head? = some f.found ∧
              n.span.endPlace < f.place) := by
  obtain ⟨tokens, lexed⟩ : ∃ tokens,
      Token.lex "entity A \x7b\n  1\n  a\n\x7d\n" = .ok tokens :=
    Token.exists_of_isOk (by decide +kernel)
  exact ⟨tokens, lexed, compile_explains .entity 10 lexed⟩

/-- An entity whose last item breaks at the brace on the line below. -/
def openItem : String := "entity A \x7b\n  a\n\x7d\n"

/-- The item is reported without its fault, which is the only one. -/
theorem compile_explains_brace :
    ∃ p m, Parse.ofSource? .entity 10 openItem = .ok p ∧
      compile .entity ⟨false, 10⟩ openItem = .ok m ∧ p.faults.length < max 10 1 ∧
      ∃ d ∈ m.diagnostics, d.message = (Reason.unrecognized .fieldList).message ∧
        ∀ f ∈ p.faults, d.message ≠ f.message := by
  obtain ⟨tokens, lexed⟩ : ∃ tokens, Token.lex openItem = .ok tokens :=
    Token.exists_of_isOk (by decide +kernel)
  refine ⟨_, _, Parse.ofSource?_of_lex lexed .entity 10, compile_plain lexed .entity 10, ?_⟩
  have computed : ((Token.lex openItem).toOption.any fun tokens =>
      let p := Parse.ofTokens .entity 10 tokens
      decide (p.faults.length < max 10 1 ∧ ∃ d ∈ (p.model .entity).diagnostics,
        d.message = (Reason.unrecognized .fieldList).message ∧
          ∀ f ∈ p.faults, d.message ≠ f.message)) = true := by
    decide +kernel
  rw [lexed] at computed
  exact of_decide_eq_true computed

end EntityFlow
