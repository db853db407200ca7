import EntityFlow.Proofs.Document.Places
import EntityFlow.Proofs.Document.Strictness
import EntityFlow.Proofs.Grammar.Layout

/-!
# Spacing

How a source is spaced matters only through lines and through which tokens touch. Two sources with
the same layout (`Token.SameLayout`) have the same faults on the same lines, trees that differ in
offsets and columns alone, and the same document (`compile_sameLayout`). So comments, indentation
and blanks reach a document in no other way.
-/

namespace EntityFlow

/-! ## The layout of a row of tokens -/

/-- The span with its lines only. -/
def Span.lines (s : Span) : Span := ⟨0, 0, s.line, 0, s.endLine, 0⟩

/-- All of a token but its offsets and its columns. -/
def Token.mark (t : Token) : Token.Kind × String × Nat × Nat :=
  (t.kind, t.text, t.span.line, t.span.endLine)

/-- For each token but the first, whether it touches the token before. -/
def Token.seams (tokens : List Token) : List Bool :=
  List.zipWith (fun before t => t.touches (some before)) tokens tokens.tail

/-- Rows of tokens that agree token by token on kinds, texts and lines, and in which the same
neighbours touch. -/
structure Token.SameLayout (tokens tokens' : List Token) : Prop where
  marks : tokens.map Token.mark = tokens'.map Token.mark
  seams : Token.seams tokens = Token.seams tokens'

instance (tokens tokens' : List Token) : Decidable (Token.SameLayout tokens tokens') :=
  decidable_of_iff (tokens.map Token.mark = tokens'.map Token.mark ∧
      Token.seams tokens = Token.seams tokens')
    ⟨fun same => ⟨same.1, same.2⟩, fun same => ⟨same.marks, same.seams⟩⟩

/-- Places correspond to each other if they are on the same lines. -/
def Layout.byLines : Layout where
  span s s' := s.line = s'.line ∧ s.endLine = s'.endLine
  line := Eq
  first := Span.lines
  second := Span.lines
  kept same := by simp [Span.lines, same]
  point same := ⟨same.1, same.1⟩
  hull same same' := ⟨same.1, same'.2⟩
  zero := rfl
  ends same := same.2
  same same lines := by rw [same.1, lines]
  later same lines := by rw [same.1, lines]

/-- Tokens with one mark correspond. -/
theorem Token.byLines_of_mark {t t' : Token} (same : t.mark = t'.mark) :
    Layout.byLines.Tokens t t' := by
  obtain ⟨kind, text, line, endLine⟩ : t.kind = t'.kind ∧ t.text = t'.text ∧
      t.span.line = t'.span.line ∧ t.span.endLine = t'.span.endLine := by
    simpa [Token.mark] using same
  exact ⟨kind, text, line, endLine⟩

/-- Rows with one layout correspond, also behind tokens that their first tokens both touch or both
do not. -/
theorem Token.SameLayout.rows {before before' : Option Token} {tokens tokens' : List Token}
    (same : Token.SameLayout tokens tokens')
    (touch : Option.Rel (fun t t' => t.touches before = t'.touches before') tokens.head?
      tokens'.head?) :
    Layout.byLines.Rows before before' tokens tokens' := by
  obtain ⟨marks, seams⟩ := same
  induction tokens generalizing before before' tokens' with
  | nil =>
      cases List.map_eq_nil_iff.mp marks.symm
      exact .nil
  | cons t rest ih =>
      cases tokens' with
      | nil => cases marks
      | cons t' rest' =>
          obtain ⟨mark, marks⟩ := List.cons_eq_cons.mp marks
          cases touch with
          | some touching =>
              refine .cons (Token.byLines_of_mark mark) touching ?_
              cases rest with
              | nil =>
                  cases List.map_eq_nil_iff.mp marks.symm
                  exact .nil
              | cons u rest =>
                  cases rest' with
                  | nil => cases marks
                  | cons u' rest' =>
                      obtain ⟨seam, seams⟩ := List.cons_eq_cons.mp seams
                      exact ih (.some seam) marks seams

/-- Sources with one layout are read from corresponding places on. -/
theorem Token.SameLayout.readings {tokens tokens' : List Token}
    (same : Token.SameLayout tokens tokens') (ordered : Token.InOrder 0 tokens)
    (ordered' : Token.InOrder 0 tokens') :
    Layout.byLines.Readings ⟨Cursor.start tokens, []⟩ ⟨Cursor.start tokens', []⟩ := by
  have touch : Option.Rel (fun t t' => Token.touches none t = Token.touches none t') tokens.head?
      tokens'.head? := by
    have lengths := congrArg List.length same.marks
    cases tokens <;> cases tokens' <;> simp at lengths
    · exact .none
    · exact .some rfl
  exact ⟨⟨same.rows touch, rfl, ordered.ended.ne_nil, ordered.arranged.before,
    ordered'.arranged.before⟩, .nil⟩

/-! ## Reading two sources with one layout -/

/-- Faults at corresponding tokens are described in the same way, on the same line. -/
theorem Layout.Faults.described {f f' : Fault} (faults : Layout.byLines.Faults f f') :
    (f.message, f.line) = (f'.message, f'.line) := by
  obtain ⟨expected, found⟩ := f
  obtain ⟨expected', found'⟩ := f'
  obtain ⟨rfl, kind, text, line, _⟩ := faults
  have kind : found.kind = found'.kind := kind
  have text : found.text = found'.text := text
  have described : Fault.message ⟨expected, found⟩ = Fault.message ⟨expected, found'⟩ := by
    simp only [Fault.message, Fault.choiceMessage, Fault.foundText, kind, text]
  exact Prod.ext described line

theorem Parse.ofTokens_sameLayout (language : Language) (limit : Nat) {tokens tokens' : List Token}
    (same : Token.SameLayout tokens tokens') (ordered : Token.InOrder 0 tokens)
    (ordered' : Token.InOrder 0 tokens') :
    List.Forall₂ Layout.byLines.Faults (Parse.ofTokens language limit tokens).faults
        (Parse.ofTokens language limit tokens').faults ∧
      (Parse.ofTokens language limit tokens).tree.mapSpans Span.lines =
        (Parse.ofTokens language limit tokens').tree.mapSpans Span.lines := by
  obtain ⟨ns, last, reads, _, equal⟩ := Parse.ofTokens_reads language limit ordered.ended
  obtain ⟨ns', last', reads', _, equal'⟩ := Parse.ofTokens_reads language limit ordered'.ended
  have start := same.readings ordered ordered'
  obtain ⟨o', other, outcomes⟩ := reads.alike start rfl
  cases other.unique reads'
  cases outcomes with
  | nodes nodes readings =>
      rw [equal, equal']
      exact ⟨readings.faults,
        Layout.ofTokens language.rootKind start.cursor readings.cursor nodes⟩

/-! ## Compiling two sources with one layout -/

/-- Two sources with one layout have faults with the same messages on the same lines, trees that
are equal up to offsets and columns, and equal documents, and strict compilation accepts both or
neither. -/
theorem compile_sameLayout (language : Language) (limit : Nat) {source source' : String}
    {tokens tokens' : List Token} (lexed : Token.lex source = .ok tokens)
    (lexed' : Token.lex source' = .ok tokens') (same : Token.SameLayout tokens tokens') :
    ∃ p p' m m', Parse.ofSource? language limit source = .ok p ∧
      Parse.ofSource? language limit source' = .ok p' ∧
      compile language ⟨false, limit⟩ source = .ok m ∧
      compile language ⟨false, limit⟩ source' = .ok m' ∧
      p.faults.map (fun f => (f.message, f.line)) = p'.faults.map (fun f => (f.message, f.line)) ∧
      p.tree.mapSpans Span.lines = p'.tree.mapSpans Span.lines ∧
      ((∃ n, compile language ⟨true, limit⟩ source = .ok n) ↔
        ∃ n, compile language ⟨true, limit⟩ source' = .ok n) ∧
      m.document = m'.document := by
  have ordered := Token.lex_inOrder lexed
  have ordered' := Token.lex_inOrder lexed'
  obtain ⟨faults, trees⟩ := Parse.ofTokens_sameLayout language limit same ordered ordered'
  refine ⟨_, _, _, _, Parse.ofSource?_of_lex lexed language limit,
    Parse.ofSource?_of_lex lexed' language limit, compile_plain lexed language limit,
    compile_plain lexed' language limit, ?_, trees, ?_, ?_⟩
  · generalize (Parse.ofTokens language limit tokens).faults = fs at faults
    generalize (Parse.ofTokens language limit tokens').faults = fs' at faults
    induction faults with
    | nil => rfl
    | cons first _ ih => rw [List.map_cons, List.map_cons, first.described, ih]
  · rw [compile_strict_accepts_iff lexed, compile_strict_accepts_iff lexed',
      ← List.length_eq_zero_iff, ← List.length_eq_zero_iff, faults.length_eq]
  · show (Model.ofTree language (Parse.ofTokens language limit tokens).tree).document =
      (Model.ofTree language (Parse.ofTokens language limit tokens').tree).document
    rw [← Model.document_mapSpans language Span.lines, trees, Model.document_mapSpans]

/-- An entity with a field that lacks its type. -/
def Parse.narrow : String :=
  "entity A \x7b\n x required\n y String required min(1)\n 1\n\x7d"

/-- The same entity with other indentation, comments and blanks. -/
def Parse.wide : String :=
  "  entity /* an entity */ A \x7b // with fields\n\t x   required\n" ++
    "y String required /* at least */ min(1) \n\t\t 1 // ?\n   \x7d"

/-- Comments, indentation and blanks do not show in what becomes of the entity. -/
theorem compile_sameLayout_narrow_wide :
    ∃ p p' m m', Parse.ofSource? .entity 10 Parse.narrow = .ok p ∧
      Parse.ofSource? .entity 10 Parse.wide = .ok p' ∧
      compile .entity ⟨false, 10⟩ Parse.narrow = .ok m ∧
      compile .entity ⟨false, 10⟩ Parse.wide = .ok m' ∧
      p.faults.map (fun f => (f.message, f.line)) = p'.faults.map (fun f => (f.message, f.line)) ∧
      p.tree.mapSpans Span.lines = p'.tree.mapSpans Span.lines ∧
      ((∃ n, compile .entity ⟨true, 10⟩ Parse.narrow = .ok n) ↔
        ∃ n, compile .entity ⟨true, 10⟩ Parse.wide = .ok n) ∧
      m.document = m'.document := by
  obtain ⟨tokens, lexed⟩ : ∃ tokens, Token.lex Parse.narrow = .ok tokens :=
    Token.exists_of_isOk (by decide +kernel)
  obtain ⟨tokens', lexed'⟩ : ∃ tokens, Token.lex Parse.wide = .ok tokens :=
    Token.exists_of_isOk (by decide +kernel)
  have same : Token.SameLayout tokens tokens' := by
    have computed : (Token.lex Parse.narrow).toOption.all (fun ts =>
        (Token.lex Parse.wide).toOption.all fun ts' =>
          decide (Token.SameLayout ts ts')) = true := by decide +kernel
    rw [lexed, lexed'] at computed
    exact of_decide_eq_true computed
  exact compile_sameLayout .entity 10 lexed lexed' same

end EntityFlow
