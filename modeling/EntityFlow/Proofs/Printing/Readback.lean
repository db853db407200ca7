import EntityFlow.Proofs.Printing.Pieces
import EntityFlow.Proofs.Tree.Spans
import EntityFlow.Proofs.Value.Reading

/-!
# Reading printed text back

`Grammar.ReadsBack g line p ps qs ns` says that a grammar reads the pieces `ps`, printed at `p` in
front of the pieces `qs`, and yields the nodes `ns`, which have no places. There is one rule for
each form of grammar, so that a printer is shown to be undone construct by construct:

* decisions are made by the next pieces (`Look.foretold`) or by their layout, which is the gap in
  front of a piece (`Cursor.Faces.onLine`, `Cursor.Faces.adjacent`);
* a node has the printed text without its blanks (`ReadsBack.tree`);
* a source that is read back as a whole is parsed without faults (`Parse.ofSource?_print`).
-/

namespace EntityFlow

/-! ## Nodes without places -/

/-- The place of a node that has none. -/
def Span.nowhere : Span := ⟨0, 0, 0, 0, 0, 0⟩

namespace Node

/-- A node without a place. -/
def plain (k : Kind) (text : String) (children : List Node) : Node :=
  ⟨k, text, .nowhere, children⟩

/-- The tree without its places. -/
def bare (n : Node) : Node := n.mapSpans fun _ => .nowhere

theorem bare_eq (n : Node) : n.bare = plain n.kind n.text (n.children.map bare) :=
  mapSpans_eq _ n

end Node

/-! ## Tokens of pieces -/

namespace Piece

/-- The kind of the piece so many places ahead, that of the end token behind all pieces. -/
def kindAt (ps : List Piece) (n : Nat) : Token.Kind :=
  match ps[n]? with
  | some x => x.lexeme.kind
  | none => .eof

/-- Whether the piece so many places ahead is one of the given words. -/
def isWordAt (ps : List Piece) (n : Nat) (ws : List String) : Bool :=
  match ps[n]? with
  | some x => x.lexeme.kind == .word && ws.contains x.lexeme.text
  | none => false

theorem tokens_length (p : Position) (ps : List Piece) : (tokens p ps).length = ps.length := by
  induction ps generalizing p with
  | nil => rfl
  | cons x ps ih => rw [tokens, List.length_cons, List.length_cons, ih]

theorem tokens_lexeme (p : Position) (ps : List Piece) :
    (tokens p ps).map Token.lexeme = ps.map fun x => (x.lexeme.kind, x.lexeme.text) := by
  induction ps generalizing p with
  | nil => rfl
  | cons x ps ih =>
      rw [tokens, List.map_cons, List.map_cons, ih]
      rfl

theorem text_singleton (x : Piece) : text [x] = x.lexeme.text := by
  simp [text, String.join]

@[simp] theorem text_nil : text [] = "" := rfl

theorem text_cons (x : Piece) (ps : List Piece) : text (x :: ps) = x.lexeme.text ++ text ps := by
  simp [text]

@[simp] theorem text_word_cons (gap : Gap) (w : Identifier) (ps : List Piece) :
    text (.word gap w :: ps) = w.text ++ text ps := text_cons _ _

@[simp] theorem text_keyword_cons (gap : Gap) (w : String)
    (spelled : Lexer.spellsWord w.toList = true) (ps : List Piece) :
    text (.keyword gap w spelled :: ps) = w ++ text ps := text_cons _ _

@[simp] theorem text_symbol_cons (gap : Gap) (k : Token.Kind) (known : k.symbol ≠ "")
    (ps : List Piece) : text (.symbol gap k known :: ps) = k.symbol ++ text ps := text_cons _ _

@[simp] theorem text_quoted_cons (gap : Gap) (s : PlainText) (ps : List Piece) :
    text (.quoted gap s :: ps) = (Lexeme.quoted s).text ++ text ps := text_cons _ _

theorem text_append (ps qs : List Piece) : text (ps ++ qs) = text ps ++ text qs := by
  simp [text, String.join_append]

theorem text_block (depth : Nat) (items : List Piece) :
    text (block depth items) = "\x7b" ++ text items ++ "\x7d" := by
  simp [block, text_append, Token.Kind.symbol, String.append_assoc]

end Piece

/-! ## Places in front of pieces -/

/-- That a place is in front of pieces printed at a position. -/
structure Cursor.Faces (c : Cursor) (p : Position) (ps : List Piece) : Prop where
  ahead : ∃ last : Token, last.kind = .eof ∧ c.ahead = Piece.tokens p ps ++ [last]
  line : c.lineBefore = p.line
  touches : 0 < p.offset → c.before.any (·.span.stop == p.offset) = true

/-- What the next pieces tell about a look; nothing where the layout decides. -/
def Look.foretold (ps : List Piece) : Look → Option Bool
  | .kind n k => some (Piece.kindAt ps n == k)
  | .word n ws => some (Piece.isWordAt ps n ws)
  | .not a => (a.foretold ps).map (!·)
  | .and a b =>
      match a.foretold ps with
      | some true => b.foretold ps
      | some false => some false
      | none => none
  | .or a b =>
      match a.foretold ps with
      | some true => some true
      | some false => b.foretold ps
      | none => none
  | .adjacent | .sameLine | .onLine | .capitals => none

theorem Look.foretold_and {a b : Look} {ps : List Piece} (told : a.foretold ps = some false) :
    (Look.and a b).foretold ps = some false := by
  rw [Look.foretold, told]

namespace Cursor.Faces

variable {c : Cursor} {p : Position} {x : Piece} {ps qs : List Piece} {line : Nat}

theorem start {tokens : List Token} {last : Token} (atEnd : last.kind = .eof)
    (known : tokens = Piece.tokens Position.origin ps ++ [last]) :
    (Cursor.start tokens).Faces .origin ps :=
  ⟨⟨last, atEnd, known⟩, rfl, fun some => absurd some (Nat.lt_irrefl 0)⟩

/-- Taking a piece. -/
theorem advance (faces : c.Faces p (x :: ps)) : c.advance.Faces (p.after x.chars) ps := by
  obtain ⟨last, atEnd, ahead⟩ := faces.ahead
  obtain ⟨u, rest, more⟩ : ∃ u rest, Piece.tokens (p.after x.chars) ps ++ [last] = u :: rest :=
    List.exists_cons_of_ne_nil (by simp)
  rw [Piece.tokens, List.cons_append, more] at ahead
  obtain ⟨before, tokens⟩ := c
  subst ahead
  refine ⟨⟨last, atEnd, more.symm⟩, rfl, fun _ => ?_⟩
  show ((x.token p).span.stop == (p.after x.chars).offset) = true
  exact beq_self_eq_true _

theorem current (faces : c.Faces p (x :: ps)) : c.current = x.token p := by
  obtain ⟨last, _, ahead⟩ := faces.ahead
  rw [Cursor.current, ahead]
  rfl

theorem nth_of_some (faces : c.Faces p ps) {n : Nat} (found : ps[n]? = some x) :
    (c.nth n).lexeme = (x.lexeme.kind, x.lexeme.text) := by
  obtain ⟨last, _, ahead⟩ := faces.ahead
  have lexeme : (Piece.tokens p ps)[n]?.map Token.lexeme =
      some (x.lexeme.kind, x.lexeme.text) := by
    rw [← List.getElem?_map, Piece.tokens_lexeme, List.getElem?_map, found]
    rfl
  obtain ⟨t, foundToken, equal⟩ := Option.map_eq_some_iff.mp lexeme
  have inside : n < (Piece.tokens p ps).length := (List.getElem?_eq_some_iff.mp foundToken).1
  rw [Cursor.nth, ahead, List.getElem?_append_left inside, foundToken, ← equal]

theorem nth_of_none (faces : c.Faces p ps) {n : Nat} (beyond : ps[n]? = none) :
    (c.nth n).kind = .eof := by
  obtain ⟨last, atEnd, ahead⟩ := faces.ahead
  have outside : (Piece.tokens p ps).length ≤ n := by
    rw [Piece.tokens_length]
    exact List.getElem?_eq_none_iff.mp beyond
  have final : c.nth n = last := by
    rw [Cursor.nth, ahead, List.getElem?_append_right outside]
    cases n - (Piece.tokens p ps).length with
    | zero => rfl
    | succ m => simp
  rw [final, atEnd]

/-- What the next pieces tell is so. -/
theorem holds {look : Look} {b : Bool} (faces : c.Faces p ps)
    (told : look.foretold ps = some b) : look.holds line c = b := by
  induction look generalizing b with
  | kind n k =>
      have equal := Option.some.inj told
      rw [Look.holds, ← equal, Piece.kindAt]
      cases found : ps[n]? with
      | some x => rw [show (c.nth n).kind = x.lexeme.kind from
          congrArg Prod.fst (faces.nth_of_some found)]
      | none => rw [faces.nth_of_none found]
  | word n ws =>
      have equal := Option.some.inj told
      rw [Look.holds, ← equal, Piece.isWordAt]
      cases found : ps[n]? with
      | some x =>
          have lexeme := faces.nth_of_some found
          rw [show (c.nth n).kind = x.lexeme.kind from congrArg Prod.fst lexeme,
            show (c.nth n).text = x.lexeme.text from congrArg Prod.snd lexeme]
      | none =>
          rw [faces.nth_of_none found]
          rfl
  | not a ih =>
      obtain ⟨value, found, equal⟩ := Option.map_eq_some_iff.mp told
      rw [Look.holds, ih found, ← equal]
  | and a b ihA ihB =>
      rw [Look.foretold] at told
      split at told
      · rename_i first
        rw [Look.holds, ihA first, ihB told, Bool.true_and]
      · rename_i first
        rw [Look.holds, ihA first, Bool.false_and]
        exact Option.some.inj told
      · cases told
  | or a b ihA ihB =>
      rw [Look.foretold] at told
      split at told
      · rename_i first
        rw [Look.holds, ihA first, Bool.true_or]
        exact Option.some.inj told
      · rename_i first
        rw [Look.holds, ihA first, ihB told, Bool.false_or]
      · cases told
  | adjacent | sameLine | onLine | capitals => cases told

theorem holds_and {a b : Look} (faces : c.Faces p ps) (told : a.foretold ps = some true)
    (other : b.holds line c = true) : (Look.and a b).holds line c = true := by
  rw [Look.holds, faces.holds told, other]
  rfl

/-- Behind a piece, what is printed without a gap is adjacent. -/
theorem adjacent (faces : c.Faces p (x :: ps)) (behind : 0 < p.offset) (gap : x.gap = .none) :
    Look.adjacent.holds line c = true := by
  have start : (x.token p).span.start = p.offset := by
    rw [Piece.token, gap]
    rfl
  rw [Look.holds, Cursor.adjacent, faces.current, start]
  exact faces.touches behind

/-- The gap in front of a piece tells on which line it is. -/
theorem onLine (faces : c.Faces p (x :: ps)) :
    Look.onLine.holds line c = ((p.after x.gap.chars).line == line) := by
  rw [Look.holds, faces.current]
  rfl

/-- The tokens between two places in front of pieces. -/
theorem taken {d : Cursor} (first : c.Faces p (ps ++ qs))
    (last : d.Faces (p.after (Piece.source ps)) qs) : c.taken d = Piece.tokens p ps := by
  obtain ⟨_, _, ahead⟩ := first.ahead
  obtain ⟨_, _, ahead'⟩ := last.ahead
  rw [Piece.tokens_append, List.append_assoc] at ahead
  have count : c.remaining - d.remaining = (Piece.tokens p ps).length := by
    simp [Cursor.remaining, ahead, ahead']
  rw [Cursor.taken, count, ahead, List.take_left']
  rfl

/-- The node between two places in front of pieces. -/
theorem bare_ofTokens {d : Cursor} (first : c.Faces p (ps ++ qs))
    (last : d.Faces (p.after (Piece.source ps)) qs) (k : Node.Kind) (ns : List Node) :
    (Node.ofTokens k c d ns).bare = Node.plain k (Piece.text ps) (ns.map Node.bare) := by
  have shown : (Piece.tokens p ps).filter (fun t => k.isDocumentation || t.kind != .javadoc) =
      Piece.tokens p ps := by
    refine List.filter_eq_self.mpr fun t member => ?_
    have lexeme := List.mem_map_of_mem (f := Token.lexeme) member
    rw [Piece.tokens_lexeme] at lexeme
    obtain ⟨x, _, equal⟩ := List.mem_map.mp lexeme
    have proper : t.kind ≠ .javadoc := by
      rw [show t.kind = x.lexeme.kind from congrArg Prod.fst equal.symm]
      exact x.lexeme.kind_ne_javadoc
    rw [bne_iff_ne.mpr proper, Bool.or_true]
  have texts : (Piece.tokens p ps).map (·.text) = ps.map (·.lexeme.text) := by
    have lexemes := congrArg (List.map Prod.snd) (Piece.tokens_lexeme p ps)
    rw [List.map_map, List.map_map] at lexemes
    exact lexemes
  have text : (Node.ofTokens k c d ns).text = Piece.text ps := by
    show String.join (((c.taken d).filter _).map (·.text)) = _
    rw [first.taken last, shown, texts]
    rfl
  rw [Node.bare_eq, Node.ofTokens_kind, text, Node.ofTokens_children]

end Cursor.Faces

/-! ## Grammars that read pieces back -/

/-- That a grammar reads pieces that are printed at a position in front of other ones and yields
nodes, which are listed without their places. -/
def Grammar.ReadsBack (g : Grammar) (line : Nat) (p : Position) (ps qs : List Piece)
    (ns : List Node) : Prop :=
  ∀ c : Cursor, c.Faces p (ps ++ qs) → ∃ ms d, ms.map Node.bare = ns ∧
    Accepts g line c ms d ∧ d.Faces (p.after (Piece.source ps)) qs

/-- The look by which the items of a block go on. -/
abbrev Grammar.seesItem : Look := .and (.not (.kind 0 .rBrace)) (.not (.kind 0 .eof))

namespace Grammar.ReadsBack

variable {g first second item body : Grammar} {look : Look} {line : Nat} {p : Position}
  {x : Piece} {ps qs rest : List Piece} {ns ms : List Node} {k : Node.Kind} {k' : Token.Kind}

theorem done : Grammar.done.ReadsBack line p [] qs [] :=
  fun c faces => ⟨[], c, rfl, .done, faces⟩

theorem take : Grammar.take.ReadsBack line p [x] qs [] := by
  intro c faces
  refine ⟨[], c.advance, rfl, .take, ?_⟩
  rw [Piece.source_cons, Piece.source_nil, List.append_nil]
  exact faces.advance

theorem seq (one : first.ReadsBack line p ps (qs ++ rest) ns)
    (two : second.ReadsBack line (p.after (Piece.source ps)) qs rest ms) :
    (Grammar.seq first second).ReadsBack line p (ps ++ qs) rest (ns ++ ms) := by
  intro c faces
  rw [List.append_assoc] at faces
  obtain ⟨ns', d, known, accepts, facesNext⟩ := one c faces
  obtain ⟨ms', e, knownMore, acceptsMore, facesLast⟩ := two d facesNext
  refine ⟨ns' ++ ms', e, ?_, .seq accepts acceptsMore, ?_⟩
  · rw [List.map_append, known, knownMore]
  · rw [Piece.source_append, Position.after_append]
    exact facesLast

/-- What reads nothing may stand behind. -/
theorem seq_nothing (one : first.ReadsBack line p ps rest ns)
    (two : second.ReadsBack line (p.after (Piece.source ps)) [] rest []) :
    (Grammar.seq first second).ReadsBack line p ps rest ns := by
  have both : (Grammar.seq first second).ReadsBack line p (ps ++ []) rest (ns ++ []) := seq one two
  rwa [List.append_nil, List.append_nil] at both

/-- What reads nothing may stand in front. -/
theorem nothing_seq (one : first.ReadsBack line p [] (ps ++ qs) [])
    (two : second.ReadsBack line p ps qs ns) :
    (Grammar.seq first second).ReadsBack line p ps qs ns :=
  seq one two

/-- One piece that is one node in front. -/
theorem cons_seq {n : Node} (one : first.ReadsBack line p [x] (ps ++ qs) [n])
    (two : second.ReadsBack line (p.after x.chars) ps qs ns) :
    (Grammar.seq first second).ReadsBack line p (x :: ps) qs (n :: ns) := by
  have after : p.after (Piece.source [x]) = p.after x.chars := by
    rw [Piece.source_cons, Piece.source_nil, List.append_nil]
  rw [← after] at two
  exact seq one two

/-- Pieces that are one node in front. -/
theorem node_seq {n : Node} (one : first.ReadsBack line p ps (qs ++ rest) [n])
    (two : second.ReadsBack line (p.after (Piece.source ps)) qs rest ns) :
    (Grammar.seq first second).ReadsBack line p (ps ++ qs) rest (n :: ns) :=
  seq one two

/-- A piece that is no node in front. -/
theorem piece_seq (one : first.ReadsBack line p [x] (ps ++ qs) [])
    (two : second.ReadsBack line (p.after x.chars) ps qs ns) :
    (Grammar.seq first second).ReadsBack line p (x :: ps) qs ns := by
  have after : p.after (Piece.source [x]) = p.after x.chars := by
    rw [Piece.source_cons, Piece.source_nil, List.append_nil]
  rw [← after] at two
  exact seq one two

theorem yes_of (holds : ∀ c : Cursor, c.Faces p (ps ++ qs) → look.holds line c = true)
    (reads : first.ReadsBack line p ps qs ns) :
    (choose look first second).ReadsBack line p ps qs ns := by
  intro c faces
  obtain ⟨ms, d, known, accepts, facesNext⟩ := reads c faces
  exact ⟨ms, d, known, .yes (holds c faces) accepts, facesNext⟩

theorem yes (told : look.foretold (ps ++ qs) = some true)
    (reads : first.ReadsBack line p ps qs ns) :
    (choose look first second).ReadsBack line p ps qs ns :=
  yes_of (fun _ faces => faces.holds told) reads

theorem no (told : look.foretold (ps ++ qs) = some false)
    (reads : second.ReadsBack line p ps qs ns) :
    (choose look first second).ReadsBack line p ps qs ns := by
  intro c faces
  obtain ⟨ms, d, known, accepts, facesNext⟩ := reads c faces
  exact ⟨ms, d, known, .no (faces.holds told) accepts, facesNext⟩

theorem opt_nothing (told : look.foretold qs = some false) :
    (opt look g).ReadsBack line p [] qs [] :=
  no told done

theorem stop_of (fails : ∀ c : Cursor, c.Faces p qs → look.holds line c = false) :
    (many look item).ReadsBack line p [] qs [] :=
  fun c faces => ⟨[], c, rfl, .stop (fails c faces), faces⟩

theorem stop (told : look.foretold qs = some false) : (many look item).ReadsBack line p [] qs [] :=
  stop_of fun _ faces => faces.holds told

theorem more_of (holds : ∀ c : Cursor, c.Faces p (ps ++ (qs ++ rest)) → look.holds line c = true)
    (one : item.ReadsBack line p ps (qs ++ rest) ns)
    (others : (many look item).ReadsBack line (p.after (Piece.source ps)) qs rest ms) :
    (many look item).ReadsBack line p (ps ++ qs) rest (ns ++ ms) := by
  intro c faces
  rw [List.append_assoc] at faces
  obtain ⟨ns', d, known, accepts, facesNext⟩ := one c faces
  obtain ⟨ms', e, knownMore, acceptsMore, facesLast⟩ := others d facesNext
  refine ⟨ns' ++ ms', e, ?_, .more (holds c faces) accepts acceptsMore, ?_⟩
  · rw [List.map_append, known, knownMore]
  · rw [Piece.source_append, Position.after_append]
    exact facesLast

theorem more (told : look.foretold (ps ++ (qs ++ rest)) = some true)
    (one : item.ReadsBack line p ps (qs ++ rest) ns)
    (others : (many look item).ReadsBack line (p.after (Piece.source ps)) qs rest ms) :
    (many look item).ReadsBack line p (ps ++ qs) rest (ns ++ ms) :=
  more_of (fun _ faces => faces.holds told) one others

/-- What is repeated only once. -/
theorem more_nothing (told : look.foretold (ps ++ qs) = some true)
    (one : item.ReadsBack line p ps qs ns)
    (others : (many look item).ReadsBack line (p.after (Piece.source ps)) [] qs []) :
    (many look item).ReadsBack line p ps qs ns := by
  have both : (many look item).ReadsBack line p (ps ++ []) qs (ns ++ []) := more told one others
  rwa [List.append_nil, List.append_nil] at both

/-- One more repetition in front of a repetition and what stands behind it. -/
theorem more_seq (told : look.foretold (ps ++ (qs ++ rest)) = some true)
    (one : item.ReadsBack line p ps (qs ++ rest) ns)
    (others : (Grammar.seq (many look item) g).ReadsBack line (p.after (Piece.source ps)) qs rest
      ms) :
    (Grammar.seq (many look item) g).ReadsBack line p (ps ++ qs) rest (ns ++ ms) := by
  intro c faces
  rw [List.append_assoc] at faces
  obtain ⟨ns', d, known, accepts, facesNext⟩ := one c faces
  obtain ⟨_, e, knownMore, acceptsMore, facesLast⟩ := others d facesNext
  cases acceptsMore with
  | @seq _ _ _ _ items _ behind _ acceptsMany acceptsLast =>
      refine ⟨ns' ++ items ++ behind, e, ?_, ?_, ?_⟩
      · rw [List.append_assoc, List.map_append, known, knownMore]
      · exact .seq (.more (faces.holds told) accepts acceptsMany) acceptsLast
      · rw [Piece.source_append, Position.after_append]
        exact facesLast

/-- A node has the text of its pieces. Its kind is told by what stands behind a lead of no piece. -/
theorem node {lead : Grammar} {cases : List (Look × Node.Kind)} {otherwise : Option Node.Kind}
    (front : lead.ReadsBack line p [] (ps ++ qs) [])
    (picked : ∀ c : Cursor, c.Faces p (ps ++ qs) → pick line c otherwise cases = some k)
    (reads : body.ReadsBack line p ps qs ns) :
    (Grammar.node lead cases otherwise body).ReadsBack line p ps qs
      [.plain k (Piece.text ps) ns] := by
  intro c faces
  obtain ⟨none, d, known, accepts, facesNext⟩ := front c faces
  obtain ⟨ms, e, knownMore, acceptsMore, facesLast⟩ := reads d facesNext
  rw [List.map_eq_nil_iff.mp known] at accepts
  refine ⟨_, e, ?_, .node accepts acceptsMore, facesLast⟩
  rw [picked d facesNext, Node.wrap, List.map_singleton, faces.bare_ofTokens facesLast,
    List.nil_append, knownMore]

theorem tree (reads : body.ReadsBack line p ps qs ns) :
    (Grammar.tree k body).ReadsBack line p ps qs [.plain k (Piece.text ps) ns] :=
  node done (fun _ _ => rfl) reads

theorem leaf : (Grammar.leaf k).ReadsBack line p [x] qs [.plain k x.lexeme.text []] := by
  have reads : (Grammar.leaf k).ReadsBack line p [x] qs [.plain k (Piece.text [x]) []] := tree take
  rwa [Piece.text_singleton] at reads

theorem last_nothing (reads : g.ReadsBack line p [] qs []) :
    (Grammar.last g).ReadsBack line p [] qs [] := by
  intro c faces
  obtain ⟨ms, d, known, accepts, facesNext⟩ := reads c faces
  rw [List.map_eq_nil_iff.mp known] at accepts
  exact ⟨[], d, rfl, .last accepts, facesNext⟩

theorem markLine (reads : g.ReadsBack p.line p ps qs ns) :
    (Grammar.markLine g).ReadsBack line p ps qs ns := by
  intro c faces
  obtain ⟨ms, d, known, accepts, facesNext⟩ := reads c faces
  rw [← faces.line] at accepts
  exact ⟨ms, d, known, .markLine accepts, facesNext⟩

theorem recovering {how : Recovery} (reads : g.ReadsBack line p ps qs ns) :
    (Grammar.recovering how g).ReadsBack line p ps qs ns := by
  intro c faces
  obtain ⟨ms, d, known, accepts, facesNext⟩ := reads c faces
  exact ⟨ms, d, known, .intact accepts, facesNext⟩

theorem call {rule : Rule} (reads : rule.grammar.ReadsBack 0 p ps qs ns) :
    (Grammar.call rule).ReadsBack line p ps qs ns := by
  intro c faces
  obtain ⟨ms, d, known, accepts, facesNext⟩ := reads c faces
  exact ⟨ms, d, known, .call accepts, facesNext⟩

/-! ## Derived forms -/

theorem symbol {known : k'.symbol ≠ ""} {gap : Gap} :
    (Grammar.symbol k').ReadsBack line p [.symbol gap k' known] qs [] := by
  have told : Look.foretold ([Piece.symbol gap k' known] ++ qs) (.kind 0 k') = some true := by
    show some (k' == k') = some true
    rw [beq_self_eq_true]
  exact yes told take

/-- Documentation and options that are not there. -/
theorem javadoc (told : (sees .javadoc).foretold qs = some false) :
    Grammar.javadoc.ReadsBack line p [] qs [] :=
  last_nothing (stop told)

theorem options (told : (sees .at).foretold qs = some false) :
    Grammar.options.ReadsBack line p [] qs [] :=
  stop told

/-- A block of items. -/
theorem block {depth : Nat} (items : ∀ p : Position,
    (many seesItem (.recovering .line item)).ReadsBack line p ps
      (.symbol (.line depth) .rBrace :: qs) ns) :
    (Grammar.block item).ReadsBack line p (Piece.block depth ps) qs ns := by
  have closed (p : Position) : (Grammar.symbol .rBrace).ReadsBack line p
      [.symbol (.line depth) .rBrace] qs [] := symbol
  have inner := seq (items (p.after (Piece.symbol .space .lBrace).chars)) (closed _)
  rw [List.append_nil] at inner
  exact piece_seq symbol inner

/-- The first way whose look the next pieces tell to hold. -/
def chosen (ps : List Piece) : List Alternative → Option Alternative
  | [] => none
  | way :: ways =>
      match way.look.foretold ps with
      | some true => some way
      | some false => chosen ps ways
      | none => none

theorem alternatives {lead : Grammar} {expected : Expectation} {ways : List Alternative}
    (front : lead.ReadsBack line p [] (ps ++ qs) [])
    (choice : chosen (ps ++ qs) ways = some ⟨look, k, body⟩)
    (reads : body.ReadsBack line p ps qs ns) :
    (Grammar.alternatives lead expected ways).ReadsBack line p ps qs
      [.plain k (Piece.text ps) ns] := by
  refine node front ?_ ?_
  · intro c faces
    induction ways with
    | nil => cases choice
    | cons first ways ih =>
        rw [chosen] at choice
        rw [List.map_cons, pick]
        split at choice
        · rename_i told
          cases choice
          rw [faces.holds told, if_pos rfl]
        · rename_i told
          rw [faces.holds told, if_neg Bool.false_ne_true]
          exact ih choice
        · cases choice
  · induction ways with
    | nil => cases choice
    | cons first ways ih =>
        rw [chosen] at choice
        rw [List.foldr_cons]
        split at choice
        · rename_i told
          cases choice
          exact yes told reads
        · rename_i told
          exact no told (ih choice)
        · cases choice

end Grammar.ReadsBack

/-! ## Names -/

/-- A name of words joined by points. -/
structure DottedName where
  first : Identifier
  others : List Identifier
deriving DecidableEq

namespace DottedName

/-- The text of a name. -/
def text (d : DottedName) : String :=
  d.first.text ++ String.join (d.others.map fun w => "." ++ w.text)

/-- The pieces behind the first word of a name. -/
def tail (others : List Identifier) : List Piece :=
  others.flatMap fun w => [.symbol .none .dot, .word .none w]

/-- The pieces of a name. -/
def pieces (gap : Gap) (d : DottedName) : List Piece := .word gap d.first :: tail d.others

theorem text_pieces (gap : Gap) (d : DottedName) : Piece.text (d.pieces gap) = d.text := by
  have behind : ∀ others : List Identifier,
      Piece.text (tail others) = String.join (others.map fun w => "." ++ w.text) := by
    intro others
    induction others with
    | nil => rfl
    | cons w others ih =>
        rw [tail, List.flatMap_cons, Piece.text_append, ← tail, ih]
        simp [Piece.text, Piece.symbol, Piece.word, Lexeme.text, Token.Kind.symbol,
          String.append_assoc]
  rw [pieces, ← List.singleton_append, Piece.text_append, behind, Piece.text_singleton]
  rfl

theorem tidy_pieces {gap : Gap} (some : gap.some = true) (d : DottedName) :
    Piece.Tidy (d.pieces gap) := by
  have apart : ∀ (gap : Gap) (w : Identifier) (others : List Identifier),
      Piece.Apart (.word gap w :: tail others) := by
    intro gap w others
    induction others generalizing gap w with
    | nil => exact .singleton _
    | cons v others ih =>
        exact .cons_cons (Piece.parted_symbol rfl)
          (.cons_cons (Piece.symbol_parted _) (ih .none v))
  exact ⟨apart gap d.first d.others, by simpa [pieces, Piece.word] using some⟩

end DottedName

namespace Grammar.ReadsBack

variable {line : Nat} {p : Position} {qs : List Piece} {k : Node.Kind}

theorem nameTail {others : List Identifier} (behind : 0 < p.offset)
    (other : (sees .dot).foretold qs = some false) :
    (many (.and (sees .dot) (.and (.kind 1 .word) .adjacent)) (.seq .take .take)).ReadsBack line p
      (DottedName.tail others) qs [] := by
  induction others generalizing p with
  | nil =>
      exact stop (Look.foretold_and other)
  | cons w others ih =>
      have pair : (Grammar.seq .take .take).ReadsBack line p
          [.symbol .none .dot, .word .none w] (DottedName.tail others ++ qs) [] :=
        piece_seq take take
      refine more_of (fun c faces => ?_) pair (ih ?_)
      · exact faces.holds_and rfl (faces.holds_and rfl (faces.adjacent behind rfl))
      · exact Nat.lt_of_lt_of_le behind (p.offset_le_after _)

/-- A name in front of anything but a point. -/
theorem name {gap : Gap} (d : DottedName) (other : (sees .dot).foretold qs = some false) :
    (Grammar.name k).ReadsBack line p (d.pieces gap) qs [.plain k d.text []] := by
  rw [← d.text_pieces gap]
  exact tree (yes rfl (piece_seq take (nameTail (Piece.offset_after _ p) other)))

/-- A name of one word. -/
theorem wordName {gap : Gap} (w : Identifier) (other : (sees .dot).foretold qs = some false) :
    (Grammar.name k).ReadsBack line p [.word gap w] qs [.plain k w.text []] := by
  have alone : (DottedName.mk w []).text = w.text := by
    simp [DottedName.text]
  rw [← alone]
  exact name ⟨w, []⟩ other

end Grammar.ReadsBack

/-! ## Whole sources -/

/-- The text of a printed source, which ends with a line end. -/
def Piece.print (ps : List Piece) : String := String.ofList (Piece.source ps ++ ['\n'])

/-- Pieces that are read back as a whole source are parsed without faults, under every limit, and
the tree is theirs. -/
theorem Parse.ofSource?_print (language : Language) {ps : List Piece} {ns : List Node}
    (apart : Piece.Apart ps) (reads : language.grammar.ReadsBack 0 .origin ps [] ns)
    (limit : Nat) :
    ∃ parse, Parse.ofSource? language limit (Piece.print ps) = .ok parse ∧ parse.faults = [] ∧
      parse.tree.bare = .plain language.rootKind (Piece.text ps) ns := by
  obtain ⟨last, atEnd, lexed⟩ := Token.lex_source apart
  have faces : (Cursor.start (Piece.tokens .origin ps ++ [last])).Faces .origin (ps ++ []) := by
    rw [List.append_nil]
    exact .start atEnd rfl
  obtain ⟨ms, d, known, accepts, facesLast⟩ := reads _ faces
  have ended := (Token.lex_inOrder lexed).ended
  obtain ⟨_, _, readsAll, _, parsed⟩ := Parse.ofTokens_reads language limit ended
  cases readsAll.unique (accepts.reads (max limit 1) [])
  refine ⟨_, Parse.ofSource?_of_lex lexed language limit, by rw [parsed], ?_⟩
  rw [parsed, ← known]
  exact faces.bare_ofTokens facesLast _ _

end EntityFlow
