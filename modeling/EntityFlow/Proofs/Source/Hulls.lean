import Mathlib.Data.Set.Insert
import EntityFlow.Proofs.Grammar.Layout
import EntityFlow.Proofs.Grammar.Placement
import EntityFlow.Proofs.Token.Extents

/-!
# Hulls of spans

In one source an offset has one line and one column (`Span.OfOneSource`), so a span is told by where
it starts and where it stops (`Span.Fits.ext`). There `Span.cover` is a hull:

* it starts at the smaller start and stops at the larger stop (`Span.start_cover`,
  `Span.stop_cover`), hence it holds both spans and lies in every span that holds both;
* it is a span of the same source (`Span.Fits.cover`), hence commutative and associative;
* the cover of the first and the last token of a run is the hull of the whole run
  (`Token.isHull_run`), and so is the span of a node (`Node.isHull_ofTokens`).
-/

namespace EntityFlow

namespace Span

/-! ## The spans of one source -/

/-- The places at which a span starts and stops. -/
def ends (s : Span) : List Position :=
  [⟨s.start, s.line, s.column⟩, ⟨s.stop, s.endLine, s.endColumn⟩]

/-- Spans of one source: none stops in front of its start, and places at one offset have the same
line and the same column. -/
structure OfOneSource (spans : Set Span) : Prop where
  forward : ∀ s ∈ spans, s.start ≤ s.stop
  agree : ∀ s ∈ spans, ∀ t ∈ spans, ∀ p ∈ s.ends, ∀ q ∈ t.ends, p.offset = q.offset → p = q

/-- That a span lies in a source whose offsets have the given places. -/
structure Fits (place : Nat → Position) (s : Span) : Prop where
  forward : s.start ≤ s.stop
  placed : ∀ p ∈ s.ends, place p.offset = p

section Places

variable {place : Nat → Position} {a b c s t : Span} {spans : Set Span}

theorem ofOneSource_of_fits (fits : ∀ s ∈ spans, Fits place s) : OfOneSource spans := by
  refine ⟨fun s member => (fits s member).forward, ?_⟩
  intro s memberS t memberT p isEnd q isEnd' same
  rw [← (fits s memberS).placed p isEnd, ← (fits t memberT).placed q isEnd', same]

/-- The offsets of one source have places. -/
theorem OfOneSource.exists_place (oneSource : OfOneSource spans) :
    ∃ place, ∀ s ∈ spans, Fits place s := by
  classical
  let IsPlace (n : Nat) (p : Position) : Prop := (∃ s ∈ spans, p ∈ s.ends) ∧ p.offset = n
  refine ⟨fun n => if found : ∃ p, IsPlace n p then found.choose else .origin, ?_⟩
  intro s member
  refine ⟨oneSource.forward s member, ?_⟩
  intro p isEnd
  have found : ∃ q, IsPlace p.offset q := ⟨p, ⟨s, member, isEnd⟩, rfl⟩
  obtain ⟨⟨t, memberT, isEnd'⟩, same⟩ := found.choose_spec
  rw [dif_pos found]
  exact oneSource.agree t memberT s member _ isEnd' p isEnd same

/-- In one source a span is told by its offsets. -/
theorem Fits.ext (fitsS : Fits place s) (fitsT : Fits place t) (starts : s.start = t.start)
    (stops : s.stop = t.stop) : s = t := by
  obtain ⟨startS, stopS, lineS, columnS, endLineS, endColumnS⟩ := s
  obtain ⟨startT, stopT, lineT, columnT, endLineT, endColumnT⟩ := t
  obtain rfl : startS = startT := starts
  obtain rfl : stopS = stopT := stops
  have first : (⟨startS, lineS, columnS⟩ : Position) = ⟨startS, lineT, columnT⟩ :=
    (fitsS.placed _ List.mem_cons_self).symm.trans (fitsT.placed _ List.mem_cons_self)
  have last : (⟨stopS, endLineS, endColumnS⟩ : Position) = ⟨stopS, endLineT, endColumnT⟩ :=
    (fitsS.placed _ (List.mem_cons_of_mem _ List.mem_cons_self)).symm.trans
      (fitsT.placed _ (List.mem_cons_of_mem _ List.mem_cons_self))
  cases first
  cases last
  rfl

/-! ## What a cover holds -/

theorem start_cover (a b : Span) : (a.cover b).start = min a.start b.start := by
  unfold cover
  dsimp only
  split <;> omega

theorem stop_cover (a b : Span) : (a.cover b).stop = max a.stop b.stop := by
  unfold cover
  dsimp only
  split <;> split <;> omega

theorem contains_cover_left (a b : Span) : (a.cover b).contains a = true := by
  rw [contains_iff, start_cover, stop_cover]
  exact ⟨Nat.min_le_left _ _, Nat.le_max_left _ _⟩

theorem contains_cover_right (a b : Span) : (a.cover b).contains b = true := by
  rw [contains_iff, start_cover, stop_cover]
  exact ⟨Nat.min_le_right _ _, Nat.le_max_right _ _⟩

/-- A span that holds both spans holds their cover. -/
theorem contains_cover (first : c.contains a = true) (second : c.contains b = true) :
    c.contains (a.cover b) = true := by
  rw [contains_iff] at first second ⊢
  rw [start_cover, stop_cover]
  exact ⟨Nat.le_min.mpr ⟨first.1, second.1⟩, Nat.max_le.mpr ⟨first.2, second.2⟩⟩

/-- A cover starts and stops where one of the two spans does. -/
theorem mem_ends_of_cover {p : Position} (isEnd : p ∈ (a.cover b).ends) :
    p ∈ a.ends ∨ p ∈ b.ends := by
  unfold cover ends at *
  dsimp only at isEnd
  split at isEnd <;> split at isEnd <;> grind

theorem cover_self (a : Span) : a.cover a = a := by
  simp [cover]

/-! ## Laws of covers -/

/-- A cover is a span of the same source. -/
theorem Fits.cover (fitsA : Fits place a) (fitsB : Fits place b) : Fits place (a.cover b) := by
  constructor
  · have forwardA := fitsA.forward
    rw [start_cover, stop_cover]
    omega
  · intro p isEnd
    rcases mem_ends_of_cover isEnd with isEnd | isEnd
    · exact fitsA.placed p isEnd
    · exact fitsB.placed p isEnd

theorem Fits.cover_comm (fitsA : Fits place a) (fitsB : Fits place b) :
    a.cover b = b.cover a := by
  refine (fitsA.cover fitsB).ext (fitsB.cover fitsA) ?_ ?_
  · rw [start_cover, start_cover, Nat.min_comm]
  · rw [stop_cover, stop_cover, Nat.max_comm]

theorem Fits.cover_assoc (fitsA : Fits place a) (fitsB : Fits place b) (fitsC : Fits place c) :
    (a.cover b).cover c = a.cover (b.cover c) := by
  refine ((fitsA.cover fitsB).cover fitsC).ext (fitsA.cover (fitsB.cover fitsC)) ?_ ?_
  · simp only [start_cover, Nat.min_assoc]
  · simp only [stop_cover, Nat.max_assoc]

end Places

/-! ## Hulls -/

/-- The hull of some spans of a source: the smallest span of the source that holds them. -/
structure IsHull (spans parts : Set Span) (hull : Span) : Prop where
  parts_subset : parts ⊆ spans
  oneSource : OfOneSource (insert hull spans)
  holds : ∀ s ∈ parts, hull.contains s = true
  least : ∀ c : Span, (∀ s ∈ parts, c.contains s = true) → c.contains hull = true

section Hulls

variable {a b s t : Span} {spans parts : Set Span}

/-- The cover of two of the parts is their hull if it holds them all. -/
theorem OfOneSource.isHull_of_mem (oneSource : OfOneSource spans) (subset : parts ⊆ spans)
    (first : a ∈ parts) (second : b ∈ parts)
    (holds : ∀ s ∈ parts, (a.cover b).contains s = true) :
    IsHull spans parts (a.cover b) := by
  obtain ⟨place, fits⟩ := oneSource.exists_place
  have fitsCover : Fits place (a.cover b) :=
    (fits a (subset first)).cover (fits b (subset second))
  refine ⟨subset, ofOneSource_of_fits (Set.forall_mem_insert.mpr ⟨fitsCover, fits⟩), holds, ?_⟩
  intro c each
  exact contains_cover (each a first) (each b second)

theorem OfOneSource.isHull_cover (oneSource : OfOneSource spans) (first : a ∈ spans)
    (second : b ∈ spans) : IsHull spans {a, b} (a.cover b) := by
  refine oneSource.isHull_of_mem (Set.pair_subset first second) (Set.mem_insert _ _)
    (Set.mem_insert_of_mem _ rfl) ?_
  rintro s (rfl | rfl)
  · exact contains_cover_left _ _
  · exact contains_cover_right _ _

/-- The cover of the first and the last of some spans in order is the hull of them all. -/
theorem OfOneSource.isHull_row (oneSource : OfOneSource spans) {row : List Span}
    (inside : ∀ s ∈ row, s ∈ spans)
    (ordered : row.Pairwise fun s t => s.start ≤ t.start ∧ s.stop ≤ t.stop)
    (head : row.head? = some a) (last : row.getLast? = some b) :
    IsHull spans {s | s ∈ row} (a.cover b) := by
  refine oneSource.isHull_of_mem inside (List.mem_of_head? head) (List.mem_of_getLast? last) ?_
  intro s member
  have starts : a.start ≤ s.start := by
    obtain ⟨rest, rfl⟩ := List.head?_eq_some_iff.mp head
    rcases List.mem_cons.mp member with rfl | later
    · exact Nat.le_refl _
    · exact ((List.pairwise_cons.mp ordered).1 s later).1
  have stops : s.stop ≤ b.stop := by
    obtain ⟨front, rfl⟩ := List.getLast?_eq_some_iff.mp last
    rcases List.mem_append.mp member with earlier | isLast
    · exact ((List.pairwise_append.mp ordered).2.2 s earlier b List.mem_cons_self).2
    · rw [List.mem_singleton.mp isLast]
  rw [contains_iff, start_cover, stop_cover]
  exact ⟨Nat.le_trans (Nat.min_le_left _ _) starts, Nat.le_trans stops (Nat.le_max_right _ _)⟩

end Hulls

/-! ## The spans of a text -/

/-- The spans of a text: each starts behind a part of it and stops behind the same or a longer
part. -/
def ofText (source : List Char) : Set Span :=
  {s | ∃ before text back, source = before ++ text ++ back ∧
    s = between (.behind before) (.behind (before ++ text))}

theorem exists_prefix_of_mem_ends {source : List Char} {s : Span} {p : Position}
    (inText : s ∈ ofText source) (isEnd : p ∈ s.ends) :
    ∃ front, front <+: source ∧ p = .behind front := by
  obtain ⟨before, text, back, rfl, rfl⟩ := inText
  rcases List.mem_pair.mp isEnd with rfl | rfl
  · exact ⟨before, ⟨text ++ back, (List.append_assoc _ _ _).symm⟩, rfl⟩
  · exact ⟨before ++ text, List.prefix_append _ _, rfl⟩

end Span

theorem Span.ofOneSource_ofText (source : List Char) : OfOneSource (ofText source) := by
  constructor
  · rintro s ⟨before, text, back, -, rfl⟩
    show (Position.behind before).offset ≤ (Position.behind (before ++ text)).offset
    rw [Position.offset_behind_append]
    exact Nat.le_add_right _ _
  · intro s inText t inText' p isEnd q isEnd' same
    obtain ⟨front, isFront, rfl⟩ := exists_prefix_of_mem_ends inText isEnd
    obtain ⟨front', isFront', rfl⟩ := exists_prefix_of_mem_ends inText' isEnd'
    rw [Text.eq_of_utf8ByteSize_eq isFront isFront' same]

/-! ## Runs of tokens -/

namespace Token

variable {source : String} {tokens run : List Token} {head last : Token}

/-- The spans of tokens are spans of the text. -/
theorem span_mem_ofText (lexed : lex source = .ok tokens) :
    ∀ t ∈ tokens, t.span ∈ Span.ofText source.toList := by
  have sliced : Lexer.Sliced [] source.toList tokens := by
    apply Lexer.tokens_sliced
    rw [← Position.origin_eq_behind]
    exact lexed
  intro t member
  obtain ⟨before, back, split, span⟩ := sliced.places t member
  exact ⟨before, t.text.toList, back, split, span⟩

/-- The cover of the first and the last token of a run is the hull of the run. -/
theorem isHull_run (lexed : lex source = .ok tokens) (isRun : run <:+: tokens)
    (first : run.head? = some head) (final : run.getLast? = some last) :
    Span.IsHull (Span.ofText source.toList) {s | ∃ t ∈ run, t.span = s}
      (head.span.cover last.span) := by
  have ordered : run.Pairwise Before := (lex_inOrder lexed).arranged.before.sublist isRun.sublist
  have inText : ∀ s ∈ run.map span, s ∈ Span.ofText source.toList := by
    intro s member
    obtain ⟨t, inRun, rfl⟩ := List.mem_map.mp member
    exact span_mem_ofText lexed t (isRun.subset inRun)
  have row := (Span.ofOneSource_ofText source.toList).isHull_row inText
    (List.pairwise_map.mpr ordered) (a := head.span) (b := last.span)
    (by rw [List.head?_map, first]; rfl) (by rw [List.getLast?_map, final]; rfl)
  simpa only [List.mem_map] using row

end Token

/-- The span of a node with tokens is the hull of these. -/
theorem Node.isHull_ofTokens {source : String} {tokens : List Token}
    (lexed : Token.lex source = .ok tokens) {first last : Cursor} (k : Node.Kind)
    (parts : List Node) (isRun : first.taken last <:+: tokens) (some : first.taken last ≠ []) :
    Span.IsHull (Span.ofText source.toList) {s | ∃ t ∈ first.taken last, t.span = s}
      (Node.ofTokens k first last parts).span := by
  have head := List.head?_eq_some_head some
  have tail := List.getLast?_eq_some_getLast some
  have span : (Node.ofTokens k first last parts).span =
      ((first.taken last).head some).span.cover ((first.taken last).getLast some).span := by
    unfold Node.ofTokens
    dsimp only
    rw [head, tail]
  rw [span]
  exact Token.isHull_run lexed isRun head tail

namespace Span

/-- **Covers are hulls.** On the spans of one source covering is commutative, associative and
idempotent, and the cover of two spans is a span of the same source, holds both and lies in every
span that holds both. The cover of the first and the last token of a run is the smallest span of the
source that holds the whole run. -/
theorem cover_laws :
    (∀ spans : Set Span, OfOneSource spans →
      (∀ a ∈ spans, ∀ b ∈ spans, a.cover b = b.cover a) ∧
      (∀ a ∈ spans, ∀ b ∈ spans, ∀ c ∈ spans, (a.cover b).cover c = a.cover (b.cover c)) ∧
      (∀ a ∈ spans, a.cover a = a) ∧
      ∀ a ∈ spans, ∀ b ∈ spans, IsHull spans {a, b} (a.cover b)) ∧
    ∀ (source : String) (tokens : List Token), Token.lex source = .ok tokens →
      ∀ (run : List Token) (head last : Token), run <:+: tokens → run.head? = some head →
        run.getLast? = some last →
        IsHull (ofText source.toList) {s | ∃ t ∈ run, t.span = s} (head.span.cover last.span) := by
  constructor
  · intro spans oneSource
    obtain ⟨place, fits⟩ := oneSource.exists_place
    refine ⟨?_, ?_, fun a _ => cover_self a, ?_⟩
    · intro a memberA b memberB
      exact (fits a memberA).cover_comm (fits b memberB)
    · intro a memberA b memberB c memberC
      exact (fits a memberA).cover_assoc (fits b memberB) (fits c memberC)
    · intro a memberA b memberB
      exact oneSource.isHull_cover memberA memberB
  · intro source tokens lexed run head last isRun first final
    exact Token.isHull_run lexed isRun first final

/-- Spans apart, one inside another and one on a line of its own, and a run of three tokens behind
a letter of two bytes. -/
theorem cover_laws_twoLines :
    let a : Span := ⟨0, 2, 1, 1, 1, 2⟩
    let b : Span := ⟨3, 6, 2, 1, 2, 4⟩
    let c : Span := ⟨4, 5, 2, 2, 2, 3⟩
    let spans : Set Span := {s | s ∈ [a, b, c]}
    let run : List Token := [⟨.lParen, "(", ⟨3, 4, 2, 1, 2, 2⟩⟩, ⟨.word, "b", c⟩,
      ⟨.rParen, ")", ⟨5, 6, 2, 3, 2, 4⟩⟩]
    let tokens := ⟨.word, "é", a⟩ :: run ++ [⟨.eof, "", ⟨6, 6, 2, 4, 2, 4⟩⟩]
    OfOneSource spans ∧ b.cover a = a.cover b ∧ (a.cover c).cover b = a.cover (c.cover b) ∧
      b.cover b = b ∧ IsHull spans {c, a} ⟨0, 5, 1, 1, 2, 3⟩ ∧
      Token.lex "é\n(b)" = .ok tokens ∧ run <:+: tokens ∧
      IsHull (ofText "é\n(b)".toList) {s | ∃ t ∈ run, t.span = s} b := by
  intro a b c spans run tokens
  have oneSource : OfOneSource spans := by
    constructor
    · show ∀ s ∈ [a, b, c], s.start ≤ s.stop
      decide
    · show ∀ s ∈ [a, b, c], ∀ t ∈ [a, b, c], ∀ p ∈ s.ends, ∀ q ∈ t.ends, p.offset = q.offset → p = q
      decide
  have inA : a ∈ spans := List.mem_cons_self
  have inB : b ∈ spans := List.mem_cons_of_mem _ List.mem_cons_self
  have inC : c ∈ spans := List.mem_cons_of_mem _ (List.mem_cons_of_mem _ List.mem_cons_self)
  have lexed : Token.lex "é\n(b)" = .ok tokens := by decide +kernel
  have isRun : run <:+: tokens := by decide
  obtain ⟨comm, assoc, idem, hull⟩ := cover_laws.1 spans oneSource
  exact ⟨oneSource, comm b inB a inA, assoc a inA c inC b inB, idem b inB, hull c inC a inA, lexed,
    isRun, cover_laws.2 _ tokens lexed run _ _ isRun rfl rfl⟩

end Span

end EntityFlow
