import EntityFlow.Proofs.Grammar.Shapes

/-!
# Error nodes

An error node is what a recovery leaves behind (`Reads.recovered_of_error`): a construct broke, its
fault was recorded, and the node reaches from its start to where reading goes on. So a tree has an
error node if and only if a fault was recorded (`Parse.faults_eq_nil_iff`). The converse takes care,
because a recovery gives up the error nodes inside the broken construct; it leaves one of its own.
-/

namespace EntityFlow

/-- An error node for one of some constructs, which broke on the way from one reading to another. -/
def Node.Recovered (limit : Nat) (known : List (Recovery × Grammar)) (first last : Reading)
    (n : Node) : Prop :=
  ∃ how g, (how, g) ∈ known ∧ ∃ line r fault broken, Reads limit g line r (.broken fault broken) ∧
    n = Node.ofTokens .error r.cursor (broken.resumed limit how r.cursor fault) [] ∧
    (∃ segment, first.cursor.Moves segment r.cursor) ∧
    (broken.record limit fault).faults <+: last.faults

section Extending

variable {limit : Nat} {known : List (Recovery × Grammar)} {first r next last : Reading} {n : Node}

theorem Node.Recovered.extend (recovered : n.Recovered limit known r next)
    (earlier : ∃ segment, first.cursor.Moves segment r.cursor)
    (later : next.faults <+: last.faults) : n.Recovered limit known first last := by
  obtain ⟨how, g, among, line, start, fault, broken, reads, equal, toStart, noted⟩ := recovered
  obtain ⟨one, toR⟩ := earlier
  obtain ⟨two, toStart⟩ := toStart
  exact ⟨how, g, among, line, start, fault, broken, reads, equal, ⟨one ++ two, toR.trans toStart⟩,
    noted.trans later⟩

theorem Node.Recovered.of_append {g₁ g₂ : Grammar} {line₁ line₂ : Nat} {ms ns : List Node}
    (one : Reads limit g₁ line₁ r (.nodes ms next))
    (two : Reads limit g₂ line₂ next (.nodes ns last))
    (front : n ∈ ms → n.Recovered limit known r next)
    (back : n ∈ ns → n.Recovered limit known next last) (member : n ∈ ms ++ ns) :
    n.Recovered limit known r last := by
  rcases List.mem_append.mp member with member | member
  · exact (front member).extend ⟨[], .refl _⟩ two.faults_prefix
  · exact (back member).extend one.moves (List.prefix_refl _)

end Extending

namespace Grammar

/-- The constructs that a grammar recovers from, outside of the nodes that it builds. -/
def recoveries : Grammar → List (Recovery × Grammar)
  | .done => []
  | .take => []
  | .fail _ => []
  | .seq first second => first.recoveries ++ second.recoveries
  | .choose _ yes no => yes.recoveries ++ no.recoveries
  | .many _ item => item.recoveries
  | .node lead cases otherwise body =>
      if otherwise.isSome || alwaysPicks cases body then [] else lead.recoveries ++ body.recoveries
  | .last g => g.recoveries
  | .atLeastOne _ g => g.recoveries
  | .markLine g => g.recoveries
  | .recovering how g => (how, g) :: g.recoveries
  | .call _ => []

/-- Whether no node is called an error node by the grammar itself. -/
def plain : Grammar → Bool
  | .done => true
  | .take => true
  | .fail _ => true
  | .seq first second => first.plain && second.plain
  | .choose _ yes no => yes.plain && no.plain
  | .many _ item => item.plain
  | .node lead cases otherwise body =>
      (otherwise != some .error && (cases.map (·.2)).all (· != .error)) &&
        (lead.plain && body.plain)
  | .last g => g.plain
  | .atLeastOne _ g => g.plain
  | .markLine g => g.plain
  | .recovering _ g => g.plain
  | .call _ => true

/-- Whether nothing is recovered from. -/
def unforgiving : Grammar → Bool
  | .done => true
  | .take => true
  | .fail _ => true
  | .seq first second => first.unforgiving && second.unforgiving
  | .choose _ yes no => yes.unforgiving && no.unforgiving
  | .many _ item => item.unforgiving
  | .node lead _ _ body => lead.unforgiving && body.unforgiving
  | .last g => g.unforgiving
  | .atLeastOne _ g => g.unforgiving
  | .markLine g => g.unforgiving
  | .recovering _ _ => false
  | .call _ => false

/-- Whether nodes are dropped only where nothing is recovered from. -/
def keepsErrors : Grammar → Bool
  | .done => true
  | .take => true
  | .fail _ => true
  | .seq first second => first.keepsErrors && second.keepsErrors
  | .choose _ yes no => yes.keepsErrors && no.keepsErrors
  | .many _ item => item.keepsErrors
  | .node lead _ _ body => lead.keepsErrors && body.keepsErrors
  | .last g => g.unforgiving
  | .atLeastOne _ g => g.keepsErrors
  | .markLine g => g.keepsErrors
  | .recovering _ g => g.keepsErrors
  | .call _ => true

/-- A node construct that builds no node recovers as its parts do. -/
theorem recoveries_of_pick {limit line : Nat} {lead body : Grammar}
    {cases : List (Look × Node.Kind)} {r last : Reading} {ns : List Node}
    (reads : Reads limit body line r (.nodes ns last))
    (unpicked : pick line r.cursor none cases = none) :
    recoveries (.node lead cases none body) = lead.recoveries ++ body.recoveries := by
  simp [recoveries, alwaysPicks_eq_false reads unpicked]

end Grammar

theorem Rule.grammar_keepsErrors (rule : Rule) : rule.grammar.keepsErrors = true := by
  cases rule with
  | value => decide
  | argument => decide
  | field => decide
  | ruleItem => decide

theorem Rule.error_not_mem_yields (rule : Rule) : Node.Kind.error ∉ rule.yields := by
  cases rule with
  | value => decide
  | argument => decide
  | field => decide
  | ruleItem => decide

theorem Language.rootKind_ne_error (language : Language) : language.rootKind ≠ .error := by
  cases language with
  | entity => decide
  | flow => decide

theorem Language.grammar_keepsErrors (language : Language) :
    language.grammar.keepsErrors = true := by
  cases language with
  | entity => decide
  | flow => decide

theorem Language.shapes_plain (language : Language) :
    (language.shapes.all fun shape => shape.1 != .error && shape.2.plain) = true := by
  cases language with
  | entity => decide
  | flow => decide

namespace Reads

variable {limit line : Nat} {g : Grammar} {r next : Reading} {ns : List Node}

/-- Every error node that is read comes from a recovery. -/
theorem recovered_of_error {known : List (Recovery × Grammar)} {n : Node}
    (reads : Reads limit g line r (.nodes ns next)) (plain : g.plain = true)
    (recoveries : g.recoveries ⊆ known) (isError : n.kind = .error) (member : n ∈ ns) :
    n.Recovered limit known r next := by
  induction reads using Reads.succeeds with
  | done => cases member
  | take => cases member
  | seq one two ihOne ihTwo =>
      obtain ⟨plainOne, plainTwo⟩ := Bool.and_eq_true_iff.mp plain
      obtain ⟨knownOne, knownTwo⟩ := List.append_subset.mp recoveries
      exact .of_append one two (ihOne plainOne knownOne) (ihTwo plainTwo knownTwo) member
  | yes _ _ ih =>
      exact ih (Bool.and_eq_true_iff.mp plain).1 (List.append_subset.mp recoveries).1 member
  | no _ _ ih =>
      exact ih (Bool.and_eq_true_iff.mp plain).2 (List.append_subset.mp recoveries).2 member
  | stop => cases member
  | more _ one rest ihOne ihRest =>
      exact .of_append one rest (ihOne plain recoveries) (ihRest plain recoveries) member
  | @node lead cases otherwise body line r ns next more last readsLead readsBody ihLead ihBody =>
      obtain ⟨names, plainBoth⟩ := Bool.and_eq_true_iff.mp plain
      obtain ⟨otherName, caseNames⟩ := Bool.and_eq_true_iff.mp names
      obtain ⟨plainLead, plainBody⟩ := Bool.and_eq_true_iff.mp plainBoth
      rcases Grammar.pick_eq_or next.cursor with same | ⟨k, among, equal⟩
      · rw [same] at member
        cases otherwise with
        | some k =>
            rw [List.mem_singleton.mp member] at isError
            have named : k = .error := isError
            rw [named] at otherName
            cases otherName
        | none =>
            rw [Grammar.recoveries_of_pick readsBody same] at recoveries
            obtain ⟨knownLead, knownBody⟩ := List.append_subset.mp recoveries
            exact .of_append readsLead readsBody (ihLead plainLead knownLead)
              (ihBody plainBody knownBody) member
      · rw [equal] at member
        rw [List.mem_singleton.mp member] at isError
        have named : k = .error := isError
        rw [named] at among
        exact absurd (List.all_eq_true.mp caseNames _ among) (by decide)
  | @last g line r ns next _ ih => exact ih plain recoveries (Node.getLast?_toList_subset ns member)
  | atLeastOne _ _ ih => exact ih plain recoveries member
  | markLine _ ih => exact ih plain recoveries member
  | intact _ ih => exact ih plain (List.cons_subset.mp recoveries).2 member
  | @recovered how g line r fault next broken =>
      rw [List.mem_singleton.mp member]
      exact ⟨how, g, recoveries List.mem_cons_self, line, r, fault, next, broken, rfl,
        ⟨[], .refl _⟩, List.prefix_refl _⟩
  | @call rule _ _ _ _ reads _ =>
      -- a rule recovers inside of its nodes only, and these are of the kinds that it yields
      have known := rule.grammar_yields (reads.kind_mem_yields n member)
      rw [isError] at known
      exact absurd known rule.error_not_mem_yields

/-- Where nothing is recovered from no fault is recorded. -/
theorem faults_eq (reads : Reads limit g line r (.nodes ns next))
    (unforgiving : g.unforgiving = true) : next.faults = r.faults := by
  induction reads using Reads.succeeds with
  | done => rfl
  | take => rfl
  | seq _ _ ihOne ihTwo =>
      obtain ⟨one, two⟩ := Bool.and_eq_true_iff.mp unforgiving
      rw [ihTwo two, ihOne one]
  | yes _ _ ih => exact ih (Bool.and_eq_true_iff.mp unforgiving).1
  | no _ _ ih => exact ih (Bool.and_eq_true_iff.mp unforgiving).2
  | stop => rfl
  | more _ _ _ ihOne ihRest => rw [ihRest unforgiving, ihOne unforgiving]
  | node _ _ ihLead ihBody =>
      obtain ⟨lead, body⟩ := Bool.and_eq_true_iff.mp unforgiving
      rw [ihBody body, ihLead lead]
  | last _ ih => exact ih unforgiving
  | atLeastOne _ _ ih => exact ih unforgiving
  | markLine _ ih => exact ih unforgiving
  | intact => cases unforgiving
  | recovered => cases unforgiving
  | call => cases unforgiving

theorem error_append {ms : List Node} {middle : Reading}
    (front : middle.faults ≠ r.faults → ∃ n ∈ Node.subtreesOf ms, n.kind = .error)
    (back : next.faults ≠ middle.faults → ∃ n ∈ Node.subtreesOf ns, n.kind = .error)
    (noted : next.faults ≠ r.faults) : ∃ n ∈ Node.subtreesOf (ms ++ ns), n.kind = .error := by
  rw [Node.subtreesOf_append]
  by_cases same : next.faults = middle.faults
  · rw [same] at noted
    obtain ⟨n, member, isError⟩ := front noted
    exact ⟨n, List.mem_append_left _ member, isError⟩
  · obtain ⟨n, member, isError⟩ := back same
    exact ⟨n, List.mem_append_right _ member, isError⟩

/-- Where a fault was recorded there is an error node. -/
theorem error_of_faults (reads : Reads limit g line r (.nodes ns next))
    (keeps : g.keepsErrors = true) (noted : next.faults ≠ r.faults) :
    ∃ n ∈ Node.subtreesOf ns, n.kind = .error := by
  induction reads using Reads.succeeds with
  | done => exact absurd rfl noted
  | take => exact absurd rfl noted
  | seq one two ihOne ihTwo =>
      obtain ⟨keepsOne, keepsTwo⟩ := Bool.and_eq_true_iff.mp keeps
      exact error_append (ihOne keepsOne) (ihTwo keepsTwo) noted
  | yes _ _ ih => exact ih (Bool.and_eq_true_iff.mp keeps).1 noted
  | no _ _ ih => exact ih (Bool.and_eq_true_iff.mp keeps).2 noted
  | stop => exact absurd rfl noted
  | more _ _ _ ihOne ihRest => exact error_append (ihOne keeps) (ihRest keeps) noted
  | @node lead cases otherwise body line r ns next more last _ _ ihLead ihBody =>
      obtain ⟨keepsLead, keepsBody⟩ := Bool.and_eq_true_iff.mp keeps
      obtain ⟨n, member, isError⟩ := error_append (ihLead keepsLead) (ihBody keepsBody) noted
      refine ⟨n, ?_, isError⟩
      cases Grammar.pick line next.cursor otherwise cases with
      | none => exact member
      | some k =>
          rw [Node.wrap, Node.subtreesOf_cons, Node.subtreesOf_nil, List.append_nil,
            Node.subtrees_eq]
          exact List.mem_cons_of_mem _ member
  | last reads _ =>
      -- nodes are dropped here, but nothing was recovered from
      exact absurd (reads.faults_eq keeps) noted
  | atLeastOne _ _ ih => exact ih keeps noted
  | markLine _ ih => exact ih keeps noted
  | intact _ ih => exact ih keeps noted
  | recovered => exact ⟨_, Node.mem_subtreesOf_self List.mem_cons_self, rfl⟩
  | @call rule _ _ _ _ _ ih => exact ih rule.grammar_keepsErrors noted

end Reads

/-- Every error node below the root of a shaped tree comes from a recovery in the shape of the node
that it is a part of. -/
theorem Node.Shaped.recovered {limit : Nat} {language : Language} {first last : Reading}
    {n part : Node} (shaped : n.Shaped limit language.shapes first last)
    (member : part ∈ n.children) (isError : part.kind = .error) :
    ∃ g, (n.kind, g) ∈ language.shapes ∧ part.Recovered limit g.recoveries first last := by
  rcases shaped with ⟨_, empty⟩ | ⟨g, shape, line, r, next, reads, earlier, later⟩
  · rw [empty] at member
    cases member
  · have plain := (Bool.and_eq_true_iff.mp (List.all_eq_true.mp language.shapes_plain _ shape)).2
    have recovered := reads.recovered_of_error plain (List.Subset.refl _) isError member
    exact ⟨g, shape, recovered.extend earlier later⟩

theorem Node.Recovered.faults_ne_nil {limit : Nat} {known : List (Recovery × Grammar)}
    {first last : Reading} {n : Node} (recovered : n.Recovered limit known first last)
    (wanted : 0 < limit) : last.faults ≠ [] := by
  obtain ⟨how, g, _, line, r, fault, broken, _, _, _, noted⟩ := recovered
  have some := broken.faults_record_ne_nil wanted fault
  intro none
  rw [none] at noted
  exact some (List.prefix_nil.mp noted)

/-- A tree has no error node if and only if no fault was recorded. -/
theorem Parse.ofTokens_faults_eq_nil_iff (language : Language) (limit : Nat) {tokens : List Token}
    (ended : Token.Ended tokens) :
    (Parse.ofTokens language limit tokens).faults = [] ↔
      ∀ n ∈ (Parse.ofTokens language limit tokens).tree.subtrees, n.kind ≠ .error := by
  constructor
  · intro none n member isError
    obtain ⟨last, faults, shaped⟩ := Parse.ofTokens_shaped language limit ended
    rw [none] at faults
    rcases Node.mem_subtrees_cases _ member with rfl | ⟨parent, inner, member⟩
    · exact absurd isError language.rootKind_ne_error
    · obtain ⟨_, _, recovered⟩ := (shaped parent inner).recovered member isError
      exact recovered.faults_ne_nil (by omega) faults.symm
  · intro clean
    obtain ⟨ns, last, reads, _, equal⟩ := Parse.ofTokens_reads language limit ended
    rw [equal] at clean ⊢
    by_cases none : last.faults = []
    · exact none
    · obtain ⟨n, member, isError⟩ := reads.error_of_faults language.grammar_keepsErrors none
      exact absurd isError (clean n (Node.mem_subtrees_of_below member))

end EntityFlow
