import EntityFlow.Proofs.Printing.Readback

/-!
# Printing and parsing of flow rules

The outline of a flow has rules: what triggers a rule and the items that follow, conditions with
branches nested to any depth. `Outline.Flow.print` prints one item a line, and parsing gives back
the tree of the rules and no faults (`Outline.parse_printFlow`). No word is reserved: what goes on
behind a name is told by the next word alone, so names may be `if`, `else`, `and` or `or`.
-/

namespace EntityFlow.Outline

/-! ## Outlines -/

/-- What joins two triggers. -/
inductive Joint
  | and
  | or

/-- The triggers of a rule. -/
structure Trigger where
  first : DottedName
  others : List (Joint × DottedName)

mutual

/-- An item of a rule. -/
inductive RuleItem
  | command (name : DottedName)
  | event (name : DottedName)
  | policy (text : PlainText)
  | condition (test : PlainText) (items : List RuleItem) (branches : Branches)

/-- What stands behind the items of a condition: further conditions, and the items for when none of
them holds. -/
inductive Branches
  | none
  | otherwise (items : List RuleItem)
  | elseIf (test : PlainText) (items : List RuleItem) (more : Branches)

end

/-- A rule. -/
structure FlowRule where
  trigger : Trigger
  items : List RuleItem

/-- A flow. -/
structure Flow where
  name : Identifier
  rules : List FlowRule

/-! ## Printing -/

/-- The word of a joint. -/
def Joint.word : Joint → Identifier
  | and => ⟨"and", by decide⟩
  | or => ⟨"or", by decide⟩

/-- The pieces of triggers behind the first one. -/
def Trigger.tail (others : List (Joint × DottedName)) : List Piece :=
  others.flatMap fun (joint, name) => .word .space joint.word :: name.pieces .space

/-- The pieces of triggers. -/
def Trigger.pieces (t : Trigger) : List Piece := t.first.pieces .space ++ Trigger.tail t.others

mutual

/-- The pieces of an item, on a new line. -/
def RuleItem.pieces (depth : Nat) : RuleItem → List Piece
  | .command name => .keyword (.line depth) "command" :: name.pieces .space
  | .event name => .keyword (.line depth) "event" :: name.pieces .space
  | .policy text => [.keyword (.line depth) "policy", .quoted .space text]
  | .condition test items branches =>
      .keyword (.line depth) "if" :: .quoted .space test ::
        (Piece.block depth (RuleItem.listPieces (depth + 1) items) ++ branches.pieces depth)

/-- The pieces of some items. -/
def RuleItem.listPieces (depth : Nat) : List RuleItem → List Piece
  | [] => []
  | item :: rest => item.pieces depth ++ RuleItem.listPieces depth rest

/-- The pieces of branches, behind the brace that closes what is in front of them. -/
def Branches.pieces (depth : Nat) : Branches → List Piece
  | .none => []
  | .otherwise items =>
      .keyword .space "else" :: Piece.block depth (RuleItem.listPieces (depth + 1) items)
  | .elseIf test items more =>
      .keyword .space "else" :: .keyword .space "if" :: .quoted .space test ::
        (Piece.block depth (RuleItem.listPieces (depth + 1) items)) ++ more.pieces depth

end

/-- The pieces of a rule, on a new line. -/
def FlowRule.pieces (rule : FlowRule) : List Piece :=
  .keyword (.line 1) "when" ::
    (rule.trigger.pieces ++ Piece.block 1 (RuleItem.listPieces 2 rule.items))

/-- The pieces of a flow. -/
def Flow.pieces (flow : Flow) : List Piece :=
  .keyword .none "flow" :: .word .space flow.name ::
    Piece.block 0 (flow.rules.flatMap FlowRule.pieces)

/-- The source text of a flow. -/
def Flow.print (flow : Flow) : String := Piece.print flow.pieces

/-! ## The tree of an outline -/

/-- The text of a quoted text, with its quotes. -/
def quotedText (s : PlainText) : String := String.ofList (Text.quoted '"' s.text.toList)

/-- The text of a block. -/
def blockText (items : String) : String := "\x7b" ++ items ++ "\x7d"

/-- The text of triggers. -/
def Trigger.text (t : Trigger) : String :=
  t.first.text ++ String.join (t.others.map fun (joint, name) => joint.word.text ++ name.text)

mutual

/-- The text of an item. -/
def RuleItem.text : RuleItem → String
  | .command name => "command" ++ name.text
  | .event name => "event" ++ name.text
  | .policy text => "policy" ++ quotedText text
  | .condition test items branches =>
      "if" ++ quotedText test ++ blockText (RuleItem.listText items) ++ branches.text

/-- The text of some items. -/
def RuleItem.listText : List RuleItem → String
  | [] => ""
  | item :: rest => item.text ++ RuleItem.listText rest

/-- The text of branches. -/
def Branches.text : Branches → String
  | .none => ""
  | .otherwise items => "else" ++ blockText (RuleItem.listText items)
  | .elseIf test items more =>
      "else" ++ "if" ++ quotedText test ++ blockText (RuleItem.listText items) ++ more.text

end

/-- The text of a rule. -/
def FlowRule.text (rule : FlowRule) : String :=
  "when" ++ rule.trigger.text ++ blockText (RuleItem.listText rule.items)

/-- The text of a flow. -/
def Flow.text (flow : Flow) : String :=
  "flow" ++ flow.name.text ++ blockText (String.join (flow.rules.map FlowRule.text))

/-- The tree of a quoted text. -/
def quotedTree (s : PlainText) : Node :=
  .plain .value (quotedText s) [.plain .doubleQuoted (quotedText s) []]

/-- The tree of triggers. -/
def Trigger.tree (t : Trigger) : Node :=
  .plain .flowWhenTrigger t.text
    (.plain .flowWhenEventTrigger t.first.text [] ::
      t.others.map fun (_, name) => .plain .flowWhenEventTrigger name.text [])

mutual

/-- The tree of an item. The branches of a condition are its last parts. -/
def RuleItem.tree : RuleItem → Node
  | .command name => .plain .flowWhenCommand ("command" ++ name.text) [.plain .id name.text []]
  | .event name => .plain .flowWhenEvent ("event" ++ name.text) [.plain .id name.text []]
  | .policy text => .plain .flowWhenPolicy ("policy" ++ quotedText text) [quotedTree text]
  | .condition test items branches =>
      .plain .flowWhenIf (RuleItem.condition test items branches).text
        (quotedTree test :: (RuleItem.trees items ++ branches.trees))

/-- The trees of some items. -/
def RuleItem.trees : List RuleItem → List Node
  | [] => []
  | item :: rest => item.tree :: RuleItem.trees rest

/-- The trees of branches. -/
def Branches.trees : Branches → List Node
  | .none => []
  | .otherwise items =>
      [.plain .flowWhenElse ("else" ++ blockText (RuleItem.listText items)) (RuleItem.trees items)]
  | .elseIf test items more =>
      .plain .flowWhenElseIf
        ("else" ++ "if" ++ quotedText test ++ blockText (RuleItem.listText items))
        (quotedTree test :: RuleItem.trees items) :: more.trees

end

/-- The tree of a rule. -/
def FlowRule.tree (rule : FlowRule) : Node :=
  .plain .flowWhen rule.text (rule.trigger.tree :: RuleItem.trees rule.items)

/-- The tree of a source that is a flow. -/
def Flow.tree (flow : Flow) : Node :=
  .plain .zfl flow.text
    [.plain .flow flow.text
      (.plain .flowName flow.name.text [] :: flow.rules.map FlowRule.tree)]

/-! ## Texts -/

theorem text_block (depth : Nat) (items : List Piece) :
    Piece.text (Piece.block depth items) = blockText (Piece.text items) :=
  Piece.text_block depth items

theorem Trigger.text_pieces (t : Trigger) : Piece.text t.pieces = t.text := by
  have behind : ∀ others : List (Joint × DottedName), Piece.text (tail others) =
      String.join (others.map fun (joint, name) => joint.word.text ++ name.text) := by
    intro others
    induction others with
    | nil => rfl
    | cons other others ih =>
        rw [tail, List.flatMap_cons, Piece.text_append, Piece.text_word_cons,
          DottedName.text_pieces, ← tail, ih, List.map_cons, String.join_cons]
  rw [pieces, Piece.text_append, DottedName.text_pieces, behind, text]

mutual

theorem RuleItem.text_pieces (depth : Nat) :
    (item : RuleItem) → Piece.text (item.pieces depth) = item.text
  | .command name => by
      rw [RuleItem.pieces, RuleItem.text, Piece.text_keyword_cons, DottedName.text_pieces]
  | .event name => by
      rw [RuleItem.pieces, RuleItem.text, Piece.text_keyword_cons, DottedName.text_pieces]
  | .policy text => by
      rw [RuleItem.pieces, RuleItem.text, Piece.text_keyword_cons, Piece.text_quoted_cons,
        Piece.text_nil, String.append_empty]
      rfl
  | .condition test items branches => by
      rw [RuleItem.pieces, RuleItem.text, Piece.text_keyword_cons, Piece.text_quoted_cons,
        Piece.text_append, text_block, RuleItem.text_listPieces, Branches.text_pieces, quotedText,
        String.append_assoc, String.append_assoc]
      rfl

theorem RuleItem.text_listPieces (depth : Nat) :
    (items : List RuleItem) → Piece.text (RuleItem.listPieces depth items) = RuleItem.listText items
  | [] => rfl
  | item :: rest => by
      rw [RuleItem.listPieces, RuleItem.listText, Piece.text_append, RuleItem.text_pieces,
        RuleItem.text_listPieces]

theorem Branches.text_pieces (depth : Nat) :
    (branches : Branches) → Piece.text (branches.pieces depth) = branches.text
  | .none => rfl
  | .otherwise items => by
      rw [Branches.pieces, Branches.text, Piece.text_keyword_cons, text_block,
        RuleItem.text_listPieces]
  | .elseIf test items more => by
      rw [Branches.pieces, Branches.text, Piece.text_append, Piece.text_keyword_cons,
        Piece.text_keyword_cons, Piece.text_quoted_cons, text_block,
        RuleItem.text_listPieces, Branches.text_pieces, quotedText]
      simp only [String.append_assoc]
      rfl

end

theorem FlowRule.text_pieces (rule : FlowRule) : Piece.text rule.pieces = rule.text := by
  rw [pieces, Piece.text_keyword_cons, Piece.text_append, Trigger.text_pieces, text_block,
    RuleItem.text_listPieces, text, String.append_assoc]

theorem Flow.text_pieces (flow : Flow) : Piece.text flow.pieces = flow.text := by
  have rules : Piece.text (flow.rules.flatMap FlowRule.pieces) =
      String.join (flow.rules.map FlowRule.text) := by
    induction flow.rules with
    | nil => rfl
    | cons rule rules ih =>
        rw [List.flatMap_cons, Piece.text_append, rule.text_pieces, ih, List.map_cons,
          String.join_cons]
  rw [pieces, Piece.text_keyword_cons, Piece.text_word_cons, text_block, rules, text,
    String.append_assoc]

/-! ## Layout -/

theorem Trigger.tidy_pieces (t : Trigger) : Piece.Tidy t.pieces :=
  (t.first.tidy_pieces rfl).append
    (.flatMap fun other _ => .cons rfl (other.2.tidy_pieces rfl))

mutual

theorem RuleItem.tidy_pieces (depth : Nat) : (item : RuleItem) → Piece.Tidy (item.pieces depth)
  | .command name => by
      rw [RuleItem.pieces]
      exact .cons rfl (name.tidy_pieces rfl)
  | .event name => by
      rw [RuleItem.pieces]
      exact .cons rfl (name.tidy_pieces rfl)
  | .policy text => by
      rw [RuleItem.pieces]
      exact .cons rfl (.cons rfl .nil)
  | .condition test items branches => by
      rw [RuleItem.pieces]
      have own : Piece.Tidy (Piece.block depth (RuleItem.listPieces (depth + 1) items)) :=
        .block depth (RuleItem.tidy_listPieces (depth + 1) items)
      exact .cons rfl (.cons rfl (own.append (Branches.tidy_pieces depth branches)))

theorem RuleItem.tidy_listPieces (depth : Nat) :
    (items : List RuleItem) → Piece.Tidy (RuleItem.listPieces depth items)
  | [] => .nil
  | item :: rest => by
      rw [RuleItem.listPieces]
      exact (RuleItem.tidy_pieces depth item).append (RuleItem.tidy_listPieces depth rest)

theorem Branches.tidy_pieces (depth : Nat) :
    (branches : Branches) → Piece.Tidy (branches.pieces depth)
  | .none => .nil
  | .otherwise items => by
      rw [Branches.pieces]
      exact .cons rfl (.block depth (RuleItem.tidy_listPieces (depth + 1) items))
  | .elseIf test items more => by
      rw [Branches.pieces]
      have own : Piece.Tidy (Piece.block depth (RuleItem.listPieces (depth + 1) items)) :=
        .block depth (RuleItem.tidy_listPieces (depth + 1) items)
      have lead : Piece.Tidy (.keyword .space "else" :: .keyword .space "if" ::
          .quoted .space test :: Piece.block depth (RuleItem.listPieces (depth + 1) items)) :=
        .cons rfl (.cons rfl (.cons rfl own))
      exact lead.append (Branches.tidy_pieces depth more)

end

theorem FlowRule.tidy_pieces (rule : FlowRule) : Piece.Tidy rule.pieces :=
  .cons rfl (rule.trigger.tidy_pieces.append (.block 1 (RuleItem.tidy_listPieces 2 rule.items)))

theorem Flow.apart_pieces (flow : Flow) : Piece.Apart flow.pieces := by
  have behind : Piece.Tidy (.word .space flow.name ::
      Piece.block 0 (flow.rules.flatMap FlowRule.pieces)) :=
    .cons rfl (.block 0 (.flatMap fun rule _ => rule.tidy_pieces))
  exact behind.apart_append (.singleton _)

/-! ## Reading back -/

open Grammar (ReadsBack)

section Parts

variable {line : Nat} {p : Position} {rest : List Piece}

/-- What may stand behind an item: nothing that goes on with it. -/
structure EndsItem (rest : List Piece) : Prop where
  point : (Grammar.sees .dot).foretold rest = some false
  branch : (Grammar.seesWord "else").foretold rest = some false

theorem endsItem_listPieces (depth closing : Nat) (items : List RuleItem) :
    EndsItem (RuleItem.listPieces depth items ++ .symbol (.line closing) .rBrace :: rest) := by
  cases items with
  | nil => exact ⟨rfl, rfl⟩
  | cons item items =>
      rw [RuleItem.listPieces]
      cases item <;> exact ⟨rfl, rfl⟩

theorem quoted_readsBack (s : PlainText) {gap : Gap} :
    Grammar.stringValue.ReadsBack line p [.quoted gap s] rest [quotedTree s] := by
  have text : Piece.text [.quoted gap s] = quotedText s := Piece.text_singleton _
  have value : Grammar.simpleValue.ReadsBack line p [.quoted gap s] rest
      [.plain .value (Piece.text [.quoted gap s]) [.plain .doubleQuoted (quotedText s) []]] :=
    .tree (.no rfl (.yes rfl .leaf))
  rw [text] at value
  exact .yes rfl value

/-- Triggers in front of a block. -/
theorem Trigger.readsBack (t : Trigger) :
    Grammar.Flow.trigger.ReadsBack line p t.pieces (.symbol .space .lBrace :: rest) [t.tree] := by
  have point (others : List (Joint × DottedName)) : (Grammar.sees .dot).foretold
      (tail others ++ .symbol .space .lBrace :: rest) = some false := by
    cases others <;> rfl
  have behind (p : Position) (others : List (Joint × DottedName)) :
      (Grammar.many (.word 0 ["and", "or"]) (.seq .take (Grammar.name
        .flowWhenEventTrigger))).ReadsBack line p (tail others) (.symbol .space .lBrace :: rest)
          (others.map fun (_, name) => .plain .flowWhenEventTrigger name.text []) := by
    induction others generalizing p with
    | nil => exact .stop rfl
    | cons other others ih =>
        obtain ⟨joint, name⟩ := other
        have looks : (Look.word 0 ["and", "or"]).foretold
            (.word .space joint.word :: name.pieces .space ++
              (tail others ++ .symbol .space .lBrace :: rest)) = some true := by
          cases joint <;> rfl
        have one : (Grammar.seq .take (Grammar.name .flowWhenEventTrigger)).ReadsBack line p
            (.word .space joint.word :: name.pieces .space)
            (tail others ++ .symbol .space .lBrace :: rest)
            [.plain .flowWhenEventTrigger name.text []] :=
          .piece_seq .take (.name name (point others))
        exact .more looks one (ih _)
  rw [tree, ← t.text_pieces]
  exact .tree (.node_seq (.name t.first (point t.others)) (behind _ t.others))

/-- A text and a block of items. -/
theorem conditional_readsBack {depth : Nat} (test : PlainText) {items : List Piece}
    {ns : List Node} (reads : ∀ p : Position, (Grammar.many Grammar.seesItem
      (.recovering .line (.call .ruleItem))).ReadsBack line p items
        (.symbol (.line depth) .rBrace :: rest) ns) :
    Grammar.Flow.conditional.ReadsBack line p (.quoted .space test :: Piece.block depth items) rest
      (quotedTree test :: ns) :=
  .cons_seq (quoted_readsBack test) (.block reads)

end Parts

/-- What a condition may go on with behind its items. -/
abbrev branchesGrammar : Grammar :=
  .seq
    (.many (.and (Grammar.seesWord "else") (.word 1 ["if"]))
      (.tree .flowWhenElseIf (.list [.take, .take, Grammar.Flow.conditional])))
    (.opt (Grammar.seesWord "else") (.tree .flowWhenElse (.seq .take Grammar.Flow.ruleItems)))

mutual

/-- An item is read back in front of whatever does not go on with it. -/
theorem RuleItem.readsBack {line : Nat} (depth : Nat) (p : Position) {rest : List Piece}
    (ends : EndsItem rest) : (item : RuleItem) →
      Grammar.Flow.ruleItemRule.ReadsBack line p (item.pieces depth) rest [item.tree]
  | .command name => by
      rw [RuleItem.tree, ← RuleItem.text, ← RuleItem.text_pieces depth]
      exact .alternatives .done rfl (.piece_seq .take (.name name ends.point))
  | .event name => by
      rw [RuleItem.tree, ← RuleItem.text, ← RuleItem.text_pieces depth]
      exact .alternatives .done rfl (.piece_seq .take (.name name ends.point))
  | .policy text => by
      rw [RuleItem.tree, ← RuleItem.text, ← RuleItem.text_pieces depth]
      exact .alternatives .done rfl (.piece_seq .take (quoted_readsBack text))
  | .condition test items branches => by
      have front (p : Position) : Grammar.Flow.conditional.ReadsBack line p
          (.quoted .space test :: Piece.block depth (RuleItem.listPieces (depth + 1) items))
          (branches.pieces depth ++ rest) (quotedTree test :: RuleItem.trees items) :=
        conditional_readsBack test fun p => RuleItem.readsBack_list (depth + 1) depth p items
      have whole : Grammar.Flow.condition.ReadsBack line p
          ((RuleItem.condition test items branches).pieces depth) rest
          (quotedTree test :: (RuleItem.trees items ++ branches.trees)) := by
        rw [RuleItem.pieces]
        exact .piece_seq .take (.seq (front _) (Branches.readsBack depth _ ends branches))
      rw [RuleItem.tree, ← RuleItem.text_pieces depth]
      exact .alternatives .done rfl whole

/-- Some items are read back in front of the end of their block. -/
theorem RuleItem.readsBack_list {line : Nat} {rest : List Piece} (depth closing : Nat)
    (p : Position) : (items : List RuleItem) →
      (Grammar.many Grammar.seesItem (.recovering .line (.call .ruleItem))).ReadsBack line p
        (RuleItem.listPieces depth items) (.symbol (.line closing) .rBrace :: rest)
        (RuleItem.trees items)
  | [] => .stop rfl
  | item :: items => by
      have looks : Grammar.seesItem.foretold (item.pieces depth ++
          (RuleItem.listPieces depth items ++ .symbol (.line closing) .rBrace :: rest)) =
            some true := by
        cases item <;> rfl
      have called : (Grammar.call .ruleItem).ReadsBack line p (item.pieces depth)
          (RuleItem.listPieces depth items ++ .symbol (.line closing) .rBrace :: rest)
          [item.tree] :=
        .call (RuleItem.readsBack depth p (endsItem_listPieces depth closing items) item)
      exact .more looks (.recovering called) (RuleItem.readsBack_list depth closing _ items)

/-- Branches are read back as those of the condition they stand behind. -/
theorem Branches.readsBack {line : Nat} (depth : Nat) (p : Position) {rest : List Piece}
    (ends : EndsItem rest) : (branches : Branches) →
      branchesGrammar.ReadsBack line p (branches.pieces depth) rest branches.trees
  | .none =>
      .nothing_seq (.stop (Look.foretold_and ends.branch)) (.opt_nothing ends.branch)
  | .otherwise items => by
      have text : Piece.text ((Branches.otherwise items).pieces depth) =
          "else" ++ blockText (RuleItem.listText items) :=
        Branches.text_pieces depth (.otherwise items)
      rw [Branches.trees, ← text]
      have block (p : Position) : Grammar.Flow.ruleItems.ReadsBack line p
          (Piece.block depth (RuleItem.listPieces (depth + 1) items)) rest
          (RuleItem.trees items) :=
        .block fun p => RuleItem.readsBack_list (depth + 1) depth p items
      rw [Branches.pieces]
      exact .nothing_seq (.stop rfl) (.yes rfl (.tree (.piece_seq .take (block _))))
  | .elseIf test items more => by
      have text : Piece.text (.keyword .space "else" :: .keyword .space "if" ::
          .quoted .space test :: Piece.block depth (RuleItem.listPieces (depth + 1) items)) =
          "else" ++ "if" ++ quotedText test ++ blockText (RuleItem.listText items) := by
        rw [Piece.text_keyword_cons, Piece.text_keyword_cons, Piece.text_quoted_cons, text_block,
          RuleItem.text_listPieces, String.append_assoc, String.append_assoc]
        rfl
      have front (p : Position) : Grammar.Flow.conditional.ReadsBack line p
          (.quoted .space test :: Piece.block depth (RuleItem.listPieces (depth + 1) items))
          (more.pieces depth ++ rest) (quotedTree test :: RuleItem.trees items) :=
        conditional_readsBack test fun p => RuleItem.readsBack_list (depth + 1) depth p items
      rw [Branches.trees, ← text, Branches.pieces]
      exact .more_seq rfl (.tree (.piece_seq .take (.piece_seq .take (front _))))
        (Branches.readsBack depth _ ends more)

end

section Sources

variable {line : Nat} {p : Position} {rest : List Piece}

theorem FlowRule.readsBack (rule : FlowRule) :
    Grammar.Flow.flowItem.ReadsBack line p rule.pieces rest [rule.tree] := by
  have items (p : Position) : Grammar.Flow.ruleItems.ReadsBack line p
      (Piece.block 1 (RuleItem.listPieces 2 rule.items)) rest (RuleItem.trees rule.items) :=
    .block fun p => RuleItem.readsBack_list 2 1 p rule.items
  have body : (Grammar.list [.take, Grammar.Flow.trigger, Grammar.Flow.ruleItems]).ReadsBack line p
      rule.pieces rest (rule.trigger.tree :: RuleItem.trees rule.items) :=
    .piece_seq .take (.node_seq rule.trigger.readsBack (items _))
  rw [tree, ← rule.text_pieces]
  exact .alternatives (.nothing_seq (.javadoc rfl) (.options rfl)) rfl body

theorem FlowRule.readsBack_list (rules : List FlowRule) :
    (Grammar.many Grammar.seesItem (.recovering .line Grammar.Flow.flowItem)).ReadsBack line p
      (rules.flatMap pieces) (.symbol (.line 0) .rBrace :: rest) (rules.map tree) := by
  induction rules generalizing p with
  | nil => exact .stop rfl
  | cons rule rules ih => exact .more rfl (.recovering rule.readsBack) ih

/-- A flow is read back as a whole source. -/
theorem Flow.readsBack (flow : Flow) :
    Grammar.Flow.source.ReadsBack line p flow.pieces []
      [.plain .flow flow.text (.plain .flowName flow.name.text [] ::
        flow.rules.map FlowRule.tree)] := by
  have word {p : Position} {rest : List Piece} : (Grammar.word "flow").ReadsBack line p
      [.keyword .none "flow"] rest [] := .yes rfl .take
  have own : Grammar.Flow.flow.ReadsBack line p flow.pieces []
      [.plain .flow (Piece.text flow.pieces) (.plain .flowName flow.name.text [] ::
        flow.rules.map FlowRule.tree)] :=
    .tree (.nothing_seq (.javadoc rfl) (.nothing_seq (.options rfl) (.piece_seq word
      (.cons_seq (.wordName flow.name rfl)
        (.block fun p => FlowRule.readsBack_list flow.rules)))))
  rw [← flow.text_pieces]
  exact .nothing_seq (.opt_nothing rfl)
    (.more_nothing rfl (.recovering (.no rfl (.no rfl own))) (.stop rfl))

end Sources

/-- **Parsing undoes printing.** Whatever words are the names and however deep the conditions are
nested, the printed flow is parsed without faults, under every limit, and the tree is that of the
flow: every branch is a part of the condition it was printed behind. -/
theorem parse_printFlow (flow : Flow) (limit : Nat) :
    ∃ parse, Parse.ofSource? .flow limit flow.print = .ok parse ∧ parse.faults = [] ∧
      parse.tree.bare = flow.tree := by
  obtain ⟨parse, parsed, clean, tree⟩ :=
    Parse.ofSource?_print .flow flow.apart_pieces flow.readsBack limit
  rw [flow.text_pieces] at tree
  exact ⟨parse, parsed, clean, tree⟩

/-- Keywords as names, a name of two words, a quote in a text, and both kinds of branch. -/
example : (Flow.mk ⟨"flow", by decide⟩ [⟨⟨⟨⟨"and", by decide⟩, []⟩,
    [(.or, ⟨⟨"a", by decide⟩, [⟨"b", by decide⟩]⟩)]⟩, [
      .condition ⟨"\"", by decide⟩ [.command ⟨⟨"else", by decide⟩, []⟩]
        (.elseIf ⟨"y", by decide⟩ [] (.otherwise [.policy ⟨"p", by decide⟩]))]⟩]).print =
    String.join ["flow flow \x7b\n",
      "  when and or a.b \x7b\n",
      "    if \"\\\"\" \x7b\n", "      command else\n",
      "    \x7d else if \"y\" \x7b\n",
      "    \x7d else \x7b\n", "      policy \"p\"\n", "    \x7d\n",
      "  \x7d\n", "\x7d\n"] := by
  decide +kernel

end EntityFlow.Outline
