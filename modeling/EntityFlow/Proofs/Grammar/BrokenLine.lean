import EntityFlow.Proofs.Grammar.Boundaries
import EntityFlow.Proofs.Grammar.Intrusion

/-!
# A broken line in a source

A line that starts with a foreign token and holds no brace, put between two lines of a source at a
boundary in a block, is one error: it becomes an error node in that block, and all other nodes stay
(`Parse.brokenLine`). Only the nodes around it stretch over the line and have its text in theirs.
-/

namespace EntityFlow

/-- The start of the line below a text. -/
def Position.below (text : String) : Position := Position.origin.after (text ++ "\n").toList

/-! ## The tokens -/

section Texts

variable {front line back : String}

theorem Position.below_eq (text : String) :
    Position.below text = (Position.origin.after text.toList).step '\n' := by
  unfold Position.below
  rw [String.toList_append, Position.after_append]
  rfl

/-- The line below a text starts behind its end, on the next line. -/
theorem Position.below_place (text : String) :
    (Position.below text).offset = (Position.origin.after text.toList).offset + 1 ∧
      (Position.below text).line = (Position.origin.after text.toList).line + 1 ∧
      (Position.below text).column = 1 := by
  rw [below_eq]
  exact ⟨rfl, rfl, rfl⟩

/-- The line below a text is as far from the start as its bytes and lines say. -/
theorem Position.below_eq_moved (text : String) :
    Position.below text =
      Position.origin.moved (Position.below text).offset ((Position.below text).line - 1) := by
  obtain ⟨_, lineEq, columnEq⟩ := Position.below_place text
  have low : 1 ≤ (Position.origin.after text.toList).line :=
    Lexer.line_le_after Position.origin text.toList
  generalize Position.below text = p at lineEq columnEq
  obtain ⟨offset, number, column⟩ := p
  dsimp only at lineEq columnEq
  simp only [Position.moved, Position.origin, Position.mk.injEq]
  omega

/-- Below one more line a source goes on so many bytes and one line further on. -/
theorem Position.after_line (oneLine : '\n' ∉ line.toList) :
    (Position.below front).after (line.toList ++ ['\n']) =
      (Position.below front).moved (Position.below line).offset 1 := by
  obtain ⟨_, _, frontColumn⟩ := Position.below_place front
  obtain ⟨_, number, column⟩ := Position.below_place line
  have one : (Position.origin.after line.toList).line = 1 := Lexer.line_after oneLine
  have moved := Position.below_eq_moved front
  have whole : (Position.origin.after (line.toList ++ ['\n'])) = Position.below line := by
    unfold Position.below
    rw [String.toList_append]
    rfl
  rw [moved, Position.after_moved, whole, ← moved]
  simp only [Position.moved, Position.mk.injEq]
  omega

/-- The tokens of a source and those of the text below it. -/
theorem Token.lex_below {before : List Token} (lexed : Token.lex front = .ok before)
    (back : String) :
    Token.lex (front ++ "\n" ++ back) =
      (Lexer.tokens (Position.below front) back.toList).map (before.dropLast ++ ·) := by
  have newline : "\n".toList = ['\n'] := rfl
  have below : Position.origin.after (front.toList ++ ['\n']) = Position.below front := by
    unfold Position.below
    rw [String.toList_append]
    rfl
  unfold Token.lex
  simp only [String.toList_append, newline, List.append_assoc, List.cons_append, List.nil_append]
  rw [← below]
  exact Lexer.tokens_append_newline lexed back.toList

/-- The tokens of a source with one more line. -/
theorem Token.lex_insert {tokens before inserted : List Token}
    (lexed : Token.lex (front ++ "\n" ++ back) = .ok tokens)
    (outside : Token.lex front = .ok before) (oneLine : '\n' ∉ line.toList)
    (lexedLine : Lexer.tokens (Position.below front) line.toList = .ok inserted) :
    ∃ rest, Lexer.tokens (Position.below front) back.toList = .ok rest ∧
      tokens = before.dropLast ++ rest ∧
      Token.lex (front ++ "\n" ++ line ++ "\n" ++ back) =
        .ok (before.dropLast ++
          (inserted.dropLast ++ rest.map (Token.moved (Position.below line).offset 1))) := by
  have whole : front ++ "\n" ++ line ++ "\n" ++ back = front ++ "\n" ++ (line ++ "\n" ++ back) := by
    simp only [String.append_assoc]
  have newline : (line ++ "\n" ++ back).toList = line.toList ++ '\n' :: back.toList := by
    simp only [String.toList_append, List.append_assoc]
    rfl
  rw [Token.lex_below outside] at lexed
  rw [whole, Token.lex_below outside, newline]
  cases found : Lexer.tokens (Position.below front) back.toList with
  | error fault =>
      rw [found] at lexed
      cases lexed
  | ok rest =>
      rw [found] at lexed
      cases lexed
      rw [Lexer.tokens_append_newline lexedLine, Position.after_line oneLine,
        Lexer.tokens_moved _ _ found]
      exact ⟨rest, rfl, rfl, rfl⟩

end Texts

/-! ## The trees -/

theorem Language.rootKind_not_block (language : Language) :
    language.rootKind ∉ Node.Kind.blocks := by
  cases language with
  | entity => decide
  | flow => decide

theorem Language.rootKind_plain (language : Language) :
    language.rootKind.isDocumentation = false := by
  cases language with
  | entity => rfl
  | flow => rfl

/-- There is a token in front of every block of a source. -/
theorem Language.grammar_approach (language : Language) : 1 ≤ language.grammar.approach none := by
  cases language with
  | entity => decide
  | flow => decide

theorem Language.grammar_closes (language : Language) : language.grammar.closes = true := by
  cases language with
  | entity => decide
  | flow => decide

/-- All nodes show their tokens, and their parts are in them, in order and apart. -/
theorem Parse.ofTokens_faithful (language : Language) (limit : Nat) {tokens : List Token}
    (ordered : Token.InOrder 0 tokens) :
    ∀ n ∈ (Parse.ofTokens language limit tokens).tree.subtrees, n.Faithful tokens := by
  obtain ⟨ns, last, reads, _, equal⟩ := Parse.ofTokens_reads language limit ordered.ended
  have on := Cursor.on_start tokens
  obtain ⟨covered, snug⟩ := reads.cover ordered on language.grammar_fits nofun
  obtain ⟨_, moves⟩ := reads.moves
  have root : Covered tokens (Cursor.start tokens) [Node.ofTokens language.rootKind _ _ ns] _ :=
    covered.node moves on ordered (snug language.grammar_snug)
  intro n member
  rw [equal] at member
  exact root.faithful n (Node.mem_subtreesOf.mpr ⟨_, List.mem_cons_self, member⟩)

/-- The tokens of a source with a foreign line in a block. -/
theorem Parse.ofTokens_mended (language : Language) {given limit place : Nat} (wanted : 2 ≤ limit)
    {I : Intrusion} {front tokens tokens' : List Token} {b : Cursor} {block : Node}
    (ordered : Token.InOrder 0 tokens) (ended' : Token.Ended tokens')
    (faultless : (Parse.ofTokens language given tokens).faults = [])
    (splits : b.Splits tokens place) (atLine : b.remaining = I.rest.length)
    (start : I.At front (Cursor.start tokens) (Cursor.start tokens'))
    (member : block ∈ (Parse.ofTokens language given tokens).tree.subtrees)
    (boundary : block.HasBoundary tokens place) :
    ∃ expected, (Parse.ofTokens language limit tokens').faults = [⟨expected, I.first⟩] ∧
      Node.Gains (Node.broken I.line) (Span.moved I.bytes 1) (some block)
        [(Parse.ofTokens language given tokens).tree]
        [(Parse.ofTokens language limit tokens').tree] := by
  obtain ⟨ns, last, reads, _, equal⟩ := Parse.ofTokens_reads language given ordered.ended
  obtain ⟨ns', last', reads', _, equal'⟩ := Parse.ofTokens_reads language limit ended'
  rw [equal] at faultless member ⊢
  rw [equal']
  have accepts : Accepts language.grammar 0 (Cursor.start tokens) ns last.cursor :=
    reads.accepts (by omega) faultless
  -- the root has no block
  have below : block ∈ Node.subtreesOf ns := by
    rw [Node.subtrees_eq] at member
    refine (List.mem_cons.mp member).resolve_left ?_
    rintro rfl
    exact language.rootKind_not_block boundary.kind
  have passes := accepts.passes_of_boundary language.grammar_blocksShow (Cursor.showsAll_nil _)
    (Cursor.on_start tokens) ordered splits below boundary
  have mends : I.Mends (max limit 1) (some block) language.grammar 0 (Cursor.start tokens') ns
      last.cursor :=
    passes.mended language.grammar_resilient start atLine (Nat.zero_le _) (by omega)
  obtain ⟨expected, all, d', mended, cursors, gains⟩ := mends
  cases reads'.unique mended
  refine ⟨expected, rfl, ?_⟩
  have some : front ≠ [] := by
    have inFront := passes.approach_le_front atLine start none (Cursor.shows_none _)
    have := language.grammar_approach
    rintro rfl
    rw [List.length_nil] at inFront
    omega
  have beyond := passes.closes_lt ordered.ended language.grammar_closes
  rw [atLine] at beyond
  obtain ⟨_, moves⟩ := accepts.moves
  obtain ⟨_, moves'⟩ := mended.moves
  exact start.gains_node some moves moves' beyond cursors language.rootKind_plain gains

/-! ## The source -/

section Sources

variable {front line back : String} {first : Token} {before later rest : List Token}

/-- A line of a source as one that is put in front of the tokens behind it. -/
theorem Intrusion.exists_of_texts (oneLine : '\n' ∉ line.toList)
    (lexedLine : Lexer.tokens (Position.below front) line.toList = .ok (first :: later))
    (lexedRest : Lexer.tokens (Position.below front) back.toList = .ok rest)
    (foreign : first.kind = .unknown)
    (unbraced : ∀ t ∈ later, t.kind ≠ .lBrace ∧ t.kind ≠ .rBrace) (more : 2 ≤ rest.length) :
    ∃ I : Intrusion, I.first = first ∧ I.line = (first :: later).dropLast ∧ I.rest = rest ∧
      I.bytes = (Position.below line).offset ∧
      I.bound = (Position.origin.after front.toList).line ∧
      I.edge = (Position.origin.after front.toList).offset := by
  obtain ⟨offset, number, _⟩ := Position.below_place front
  have ended := (Lexer.tokens_inOrder lexedLine).ended
  have someLater : later ≠ [] := by
    rintro rfl
    have atEnd : first.kind = .eof := ended
    rw [foreign] at atEnd
    cases atEnd
  have whole : (first :: later).dropLast = first :: later.dropLast :=
    List.dropLast_cons_of_ne_nil someLater
  have inLine := Lexer.tokens_between lexedLine
  have inRest := Lexer.tokens_between lexedRest
  have sameLine := @Lexer.line_after (Position.below front) _ oneLine
  have among : ∀ t ∈ first :: later.dropLast, t ∈ first :: later := by
    rw [← whole]
    exact List.dropLast_subset _
  refine ⟨⟨rest, first, later.dropLast, (Position.below line).offset,
    (Position.origin.after front.toList).line, (Position.origin.after front.toList).offset,
    Lexer.line_le_after Position.origin front.toList, more, foreign, ?_, ?_, ?_, ?_, ?_⟩,
    rfl, whole.symm, rfl, rfl, rfl, rfl⟩
  · intro t member
    have proper : t.kind ≠ .eof := by
      rw [← whole] at member
      exact ended.proper_of_mem_dropLast member
    refine ⟨proper, ?_⟩
    rcases List.mem_cons.mp (among t member) with rfl | member
    · rw [foreign]
      decide
    · exact unbraced t member
  · intro t member
    obtain ⟨_, starts, forward, ends⟩ := inLine t (among t member)
    omega
  · have := (inLine first List.mem_cons_self).1.1
    omega
  · intro t member
    obtain ⟨⟨starts, _⟩, low, forward, _⟩ := inRest t member
    omega
  · intro t member u behind
    have stops := (inLine t (among t member)).1.2
    have starts := (inRest u behind).1.1
    have longer := congrArg Position.offset (@Position.after_line front line oneLine)
    rw [Position.after_append] at longer
    have step : (((Position.below front).after line.toList).after ['\n']).offset =
      ((Position.below front).after line.toList).offset + 1 := rfl
    have moved : ((Position.below front).moved (Position.below line).offset 1).offset =
      (Position.below front).offset + (Position.below line).offset := rfl
    omega

/-- The place between the tokens in front of a line end and those behind it. -/
theorem Cursor.splits_below {tokens : List Token}
    (outside : Token.lex front = .ok before)
    (lexedRest : Lexer.tokens (Position.below front) back.toList = .ok rest)
    (whole : tokens = before.dropLast ++ rest) :
    (Cursor.mk before.dropLast.getLast? rest).Splits tokens (Position.below front).offset := by
  obtain ⟨offset, _, _⟩ := Position.below_place front
  have orderedRest := Lexer.tokens_inOrder lexedRest
  obtain ⟨u, more, rfl⟩ := List.exists_cons_of_ne_nil orderedRest.ended.ne_nil
  refine ⟨⟨before.dropLast, whole, ?_, fun _ => List.cons_ne_nil _ _⟩, ?_, ?_⟩
  · exact (Option.or_none).symm
  · unfold Cursor.stopsAt
    cases last : before.dropLast.getLast? with
    | none => exact Nat.zero_le _
    | some t =>
        have member := List.dropLast_subset _ (List.mem_of_getLast? last)
        have := (Lexer.tokens_between outside t member).1.2
        show t.span.stop ≤ _
        omega
  · exact (Lexer.tokens_between lexedRest u List.mem_cons_self).1.1

/-- Behind a boundary in a block there are a brace and the end token. -/
theorem Node.HasBoundary.two_le {tokens : List Token} {block : Node}
    (boundary : block.HasBoundary tokens (Position.below front).offset)
    (ordered : Token.InOrder 0 tokens) (outside : Token.lex front = .ok before)
    (lexedRest : Lexer.tokens (Position.below front) back.toList = .ok rest)
    (whole : tokens = before.dropLast ++ rest) : 2 ≤ rest.length := by
  obtain ⟨t, own, closes, behind⟩ := boundary.closed
  have proper : t.kind ≠ .eof := by
    rw [closes]
    decide
  have member : t ∈ tokens := (List.mem_filter.mp (List.mem_filter.mp own).1).1
  have some := ordered.arranged.start_lt t member proper
  have later : t ∈ rest := by
    rw [whole] at member
    refine (List.mem_append.mp member).resolve_left fun member => ?_
    obtain ⟨offset, _, _⟩ := Position.below_place front
    have := (Lexer.tokens_between outside t (List.dropLast_subset _ member)).1.2
    omega
  have ended := (Lexer.tokens_inOrder lexedRest).ended
  match rest with
  | [u] =>
      rw [List.mem_singleton.mp later] at proper
      exact absurd ended proper
  | _ :: _ :: _ => exact Nat.le_add_left 2 _

/-- A line that starts with a foreign token and holds no brace, put into a source without errors at
a boundary in a block, is the only error of the new source, at the first token of the line. The tree
gains an error node for the tokens of the line in that block, and all other nodes are the same up to
the shift of what is behind the line, but that the nodes around the line stretch over it and have
its text in theirs. The line break is in no comment, that is, the text in front of it has tokens of
its own. -/
theorem Parse.brokenLine (language : Language) {given limit : Nat} (wanted : 2 ≤ limit)
    {tokens : List Token} {p : Parse} {block : Node}
    (lexed : Token.lex (front ++ "\n" ++ back) = .ok tokens)
    (parsed : Parse.ofSource? language given (front ++ "\n" ++ back) = .ok p)
    (faultless : p.faults = []) (outside : Token.lex front = .ok before)
    (member : block ∈ p.tree.subtrees)
    (boundary : block.HasBoundary tokens (Position.below front).offset)
    (oneLine : '\n' ∉ line.toList)
    (lexedLine : Lexer.tokens (Position.below front) line.toList = .ok (first :: later))
    (foreign : first.kind = .unknown)
    (unbraced : ∀ t ∈ later, t.kind ≠ .lBrace ∧ t.kind ≠ .rBrace) :
    ∃ tokens' p', Token.lex (front ++ "\n" ++ line ++ "\n" ++ back) = .ok tokens' ∧
      Parse.ofSource? language limit (front ++ "\n" ++ line ++ "\n" ++ back) = .ok p' ∧
      (∃ expected, p'.faults = [⟨expected, first⟩]) ∧
      Node.Gains (Node.broken (first :: later).dropLast)
        (Span.moved (Position.below line).offset 1) (some block) [p.tree] [p'.tree] ∧
      ∀ n ∈ p'.tree.subtrees, n.Faithful tokens' := by
  obtain ⟨rest, lexedRest, whole, lexed'⟩ := Token.lex_insert lexed outside oneLine lexedLine
  have ordered := Token.lex_inOrder lexed
  have ordered' := Token.lex_inOrder lexed'
  cases (Parse.ofSource?_of_lex lexed language given).symm.trans parsed
  have more := boundary.two_le ordered outside lexedRest whole
  obtain ⟨I, isFirst, isLine, isRest, isBytes, isBound, isEdge⟩ :=
    Intrusion.exists_of_texts oneLine lexedLine lexedRest foreign unbraced more
  rw [← isLine, ← isRest, ← isBytes] at lexed' ordered'
  refine ⟨_, _, lexed', Parse.ofSource?_of_lex lexed' language limit, ?_⟩
  have start : I.At before.dropLast (Cursor.start tokens)
      (Cursor.start (before.dropLast ++ (I.line ++ I.rest.map (Token.moved I.bytes 1)))) := by
    refine ⟨⟨rfl, ?_, rfl, ?_⟩, ordered.ended, ordered.arranged.before, ordered'.arranged.before⟩
    · rw [← isRest] at whole
      exact whole
    · intro t inFront
      have inFront : t ∈ before.dropLast := inFront
      obtain ⟨⟨_, stops⟩, _, _, ends⟩ :=
        Lexer.tokens_between outside t (List.dropLast_subset _ inFront)
      show t.span.endLine ≤ I.bound ∧ t.span.stop ≤ I.edge
      rw [isBound, isEdge]
      exact ⟨ends, stops⟩
  have atLine : rest.length = I.rest.length := by rw [isRest]
  have mended := Parse.ofTokens_mended language wanted ordered ordered'.ended faultless
    (Cursor.splits_below outside lexedRest whole) atLine start member boundary
  obtain ⟨expected, faults, gains⟩ := mended
  refine ⟨⟨expected, ?_⟩, ?_, Parse.ofTokens_faithful language limit ordered'⟩
  · rw [faults, isFirst]
  · rw [← isLine, ← isBytes]
    exact gains

end Sources

/-- An entity up to the end of its first field. -/
def Parse.firstField : String := "entity A \x7b\n  x B"

/-- The rest of the entity, from its second field on. -/
def Parse.secondField : String := "  z D\n\x7d\n"

/-- A line that is no field. -/
def Parse.noField : String := "  # y C"

/-- The first token of the line between the fields. -/
def Parse.noFieldStart : Token := ⟨.unknown, "#", ⟨19, 20, 3, 3, 3, 4⟩⟩

/-- The tokens after it. -/
def Parse.noFieldRest : List Token :=
  [⟨.word, "y", ⟨21, 22, 3, 5, 3, 6⟩⟩, ⟨.word, "C", ⟨23, 24, 3, 7, 3, 8⟩⟩,
    ⟨.eof, "", ⟨24, 24, 3, 8, 3, 8⟩⟩]

/-- Between the fields such a line is an error of its own. -/
theorem Parse.brokenLine_noField :
    ∃ tokens tokens' p p' block,
      Token.lex (Parse.firstField ++ "\n" ++ Parse.secondField) = .ok tokens ∧
      Parse.ofSource? .entity 10 (Parse.firstField ++ "\n" ++ Parse.secondField) = .ok p ∧
      block ∈ p.tree.subtrees ∧
      block.HasBoundary tokens (Position.below Parse.firstField).offset ∧
      Token.lex (Parse.firstField ++ "\n" ++ Parse.noField ++ "\n" ++ Parse.secondField) =
        .ok tokens' ∧
      Parse.ofSource? .entity 2
        (Parse.firstField ++ "\n" ++ Parse.noField ++ "\n" ++ Parse.secondField) = .ok p' ∧
      (∃ expected, p'.faults = [⟨expected, Parse.noFieldStart⟩]) ∧
      Node.Gains (Node.broken (Parse.noFieldStart :: Parse.noFieldRest).dropLast)
        (Span.moved (Position.below Parse.noField).offset 1) (some block) [p.tree] [p'.tree] ∧
      ∀ n ∈ p'.tree.subtrees, n.Faithful tokens' := by
  obtain ⟨tokens, lexed⟩ :
      ∃ tokens, Token.lex (Parse.firstField ++ "\n" ++ Parse.secondField) = .ok tokens :=
    Token.exists_of_isOk (by decide +kernel)
  obtain ⟨before, outside⟩ : ∃ before, Token.lex Parse.firstField = .ok before :=
    Token.exists_of_isOk (by decide +kernel)
  have parsed := Parse.ofSource?_of_lex lexed .entity 10
  have lexedLine : Lexer.tokens (Position.below Parse.firstField) Parse.noField.toList =
      .ok (Parse.noFieldStart :: Parse.noFieldRest) := by decide +kernel
  have computed : (Token.lex (Parse.firstField ++ "\n" ++ Parse.secondField)).toOption.all
      (fun ts => (Parse.ofTokens .entity 10 ts).faults.isEmpty &&
        (Parse.ofTokens .entity 10 ts).tree.children.any fun n =>
          decide (n.HasBoundary ts (Position.below Parse.firstField).offset)) = true := by
    decide +kernel
  rw [lexed] at computed
  obtain ⟨faultless, bounded⟩ := Bool.and_eq_true_iff.mp computed
  obtain ⟨block, among, boundary⟩ := List.any_eq_true.mp bounded
  have member : block ∈ (Parse.ofTokens .entity 10 tokens).tree.subtrees :=
    Node.mem_subtrees_of_below (Node.mem_subtreesOf_self among)
  have boundary := of_decide_eq_true boundary
  obtain ⟨tokens', p', lexed', parsed', mended⟩ :=
    Parse.brokenLine .entity (Nat.le_refl 2) lexed parsed (List.isEmpty_iff.mp faultless) outside
      member boundary (by decide +kernel) lexedLine rfl (by decide)
  exact ⟨tokens, tokens', _, p', block, lexed, parsed, member, boundary, lexed', parsed', mended⟩

/-- The nodes around the line have its text in theirs, so they are not what they were. -/
theorem Parse.brokenLine_texts :
    ∃ tokens p p' block,
      Token.lex (Parse.firstField ++ "\n" ++ Parse.secondField) = .ok tokens ∧
      Parse.ofSource? .entity 10 (Parse.firstField ++ "\n" ++ Parse.secondField) = .ok p ∧
      p.faults = [] ∧ block ∈ p.tree.children ∧
      block.HasBoundary tokens (Position.below Parse.firstField).offset ∧
      Lexer.tokens (Position.below Parse.firstField) Parse.noField.toList =
        .ok (Parse.noFieldStart :: Parse.noFieldRest) ∧
      Parse.ofSource? .entity 2
        (Parse.firstField ++ "\n" ++ Parse.noField ++ "\n" ++ Parse.secondField) = .ok p' ∧
      ∀ n ∈ p'.tree.subtrees, n.text ≠ block.text := by
  obtain ⟨tokens, lexed⟩ :
      ∃ tokens, Token.lex (Parse.firstField ++ "\n" ++ Parse.secondField) = .ok tokens :=
    Token.exists_of_isOk (by decide +kernel)
  obtain ⟨tokens', lexed'⟩ : ∃ tokens, Token.lex
      (Parse.firstField ++ "\n" ++ Parse.noField ++ "\n" ++ Parse.secondField) = .ok tokens :=
    Token.exists_of_isOk (by decide +kernel)
  have computed : (Token.lex (Parse.firstField ++ "\n" ++ Parse.secondField)).toOption.all
      (fun ts => (Token.lex (Parse.firstField ++ "\n" ++ Parse.noField ++ "\n" ++
          Parse.secondField)).toOption.all fun ts' =>
        (Parse.ofTokens .entity 10 ts).faults.isEmpty &&
          (Parse.ofTokens .entity 10 ts).tree.children.any fun n =>
            decide (n.HasBoundary ts (Position.below Parse.firstField).offset) &&
              (Parse.ofTokens .entity 2 ts').tree.subtrees.all fun n' => n'.text != n.text) =
      true := by decide +kernel
  rw [lexed, lexed'] at computed
  obtain ⟨faultless, found⟩ := Bool.and_eq_true_iff.mp computed
  obtain ⟨block, member, both⟩ := List.any_eq_true.mp found
  obtain ⟨boundary, texts⟩ := Bool.and_eq_true_iff.mp both
  refine ⟨tokens, _, _, block, lexed, Parse.ofSource?_of_lex lexed .entity 10,
    List.isEmpty_iff.mp faultless, member, of_decide_eq_true boundary, by decide +kernel,
    Parse.ofSource?_of_lex lexed' .entity 2, ?_⟩
  intro n among
  exact bne_iff_ne.mp (List.all_eq_true.mp texts n among)

end EntityFlow
