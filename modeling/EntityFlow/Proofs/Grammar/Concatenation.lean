import EntityFlow.Proofs.Grammar.BrokenLine
import EntityFlow.Proofs.Grammar.Restarts

/-!
# Sources one below the other

Two sources of the entity language without errors, put one below the other, are read as the
declarations of the first and those of the second, and what stands between them is lost as one error
(`Parse.concatenated`):

* **above**: no declaration looks past its own last token, so the first source is read as before
  (`Grammar.Entity.source_across`);
* **between**: what starts no declaration breaks at once, and it is given up to the next construct
  (`Recovery.toConstruct_over`);
* **below**: no declaration looks at what stands behind it, so the second source is read as before,
  so many bytes and lines further on (`Accepts.further`).
-/

namespace EntityFlow

/-! ## Declarations -/

namespace Grammar.Entity

/-- Constants in the old style. -/
def constants : Grammar := many seesConstant (recovering (.construct keywords) constant)

/-- The declarations of a source. -/
def declarations : Grammar := many seesMore (recovering (.construct keywords) declaration)

variable {c c' d : Cursor} {line limit : Nat} {ns : List Node} {faults : List Fault}

/-- In front of a token that starts no construct a declaration breaks at once. -/
theorem declaration_breaks (plain : Recovery.startsConstruct keywords c.current = false) :
    Reads limit declaration line ⟨c, faults⟩
      (.broken ⟨.declaration, c.current⟩ ⟨c, faults⟩) := by
  have noWord (w : String) (among : w ∈ keywords) : (seesWord w).holds line c = false := by
    rw [seesWord, Look.holds, Cursor.nth_zero, Bool.and_eq_false_iff]
    by_cases isWord : c.current.kind = .word
    · right
      simp only [Recovery.startsConstruct, isWord, List.contains_eq_mem,
        decide_eq_false_iff_not] at plain
      simp only [List.contains_eq_mem, List.mem_singleton, decide_eq_false_iff_not]
      rintro rfl
      exact plain among
    · left
      exact beq_false_of_ne isWord
  have noJavadoc : (sees .javadoc).holds line c = false := by
    rw [sees, Look.holds, Cursor.nth_zero]
    refine beq_false_of_ne fun isJavadoc => ?_
    rw [Recovery.startsConstruct, isJavadoc] at plain
    cases plain
  have noOption : (sees .at).holds line c = false := by
    rw [sees, Look.holds, Cursor.nth_zero]
    refine beq_false_of_ne fun isOption => ?_
    rw [Recovery.startsConstruct, isOption] at plain
    cases plain
  have noService : (Look.and (seesWord "service") (.word 2 ["for"])).holds line c = false := by
    rw [Look.holds, noWord "service" (by decide), Bool.false_and]
  refine .bodyBroken (.seq (.last (.stop noJavadoc)) (.stop noOption)) ?_
  exact .no (noWord "entity" (by decide)) (.no (noWord "enum" (by decide))
    (.no (noWord "relationship" (by decide)) (.no noService (.no (noWord "service" (by decide))
      (.no (noWord "event" (by decide)) (.no (noWord "input" (by decide)) .fail))))))

/-- Declarations start with a token that may start a construct. -/
theorem startsConstruct_of_declarations (accepts : Accepts declarations line c ns d)
    (proper : c.Proper) : Recovery.startsConstruct keywords c.current = true := by
  by_contra plain
  have broken : Reads 1 declaration line ⟨c, []⟩ _ :=
    declaration_breaks (Bool.eq_false_iff.mpr plain)
  unfold declarations at accepts
  cases accepts with
  | stop fails =>
      rw [seesMore_iff.mpr proper] at fails
      cases fails
  | more _ one _ =>
      cases one with
      | intact one => cases (one.reads 1 []).unique broken

theorem declaration_chains : (recovering (.construct keywords) declaration).chains = true := by
  decide +kernel

theorem declarations_blind : declarations.blind false = true := by
  decide +kernel

/-- What stands in front of the declarations does not look past the first of them. -/
theorem opening_kept :
    ((globalJavadoc keywords).looks Rule.looks ++ constants.looks Rule.looks).all
      (·.kept (max 1 ((recovering (.construct keywords) declaration).count true))
        (recovering (.construct keywords) declaration).head) = true := by
  decide +kernel

/-! ### The parts of a source -/

theorem source_split (accepts : Accepts source line c ns d) :
    ∃ front c₁ middle c₂ back, Accepts (globalJavadoc keywords) line c front c₁ ∧
      Accepts constants line c₁ middle c₂ ∧ Accepts declarations line c₂ back d ∧
      ns = front ++ (middle ++ back) := by
  have accepts :
    Accepts (.seq (globalJavadoc keywords) (.seq constants declarations)) line c ns d := accepts
  cases accepts with
  | seq one rest =>
      cases rest with
      | seq two three => exact ⟨_, _, _, _, _, one, two, three, rfl⟩

theorem accepts_tree {k : Node.Kind} {body : Grammar}
    (accepts : Accepts (tree k body) line c ns d) :
    ∃ n, ns = [n] ∧ n.kind = k := by
  cases accepts with
  | node lead _ =>
      cases lead
      exact ⟨_, rfl, rfl⟩

theorem globalJavadoc_nodes (accepts : Accepts (globalJavadoc keywords) line c ns d) :
    (∀ n ∈ ns, n.kind = .globalJavadoc) ∧ (ns = [] → d = c) := by
  cases accepts with
  | yes _ reads =>
      obtain ⟨n, rfl, isKind⟩ := accepts_tree reads
      exact ⟨by simpa using isKind, nofun⟩
  | no _ reads =>
      cases reads
      exact ⟨nofun, fun _ => rfl⟩

theorem constants_nodes (accepts : Accepts constants line c ns d) :
    (∀ n ∈ ns, n.kind = .legacyConstant) ∧ (ns = [] → d = c) := by
  generalize shape : constants = g at accepts
  induction accepts with
  | stop _ => exact ⟨nofun, fun _ => rfl⟩
  | more _ one _ _ ihRest =>
      cases shape
      cases one with
      | intact one =>
          obtain ⟨n, rfl, isKind⟩ := accepts_tree one
          refine ⟨?_, nofun⟩
          intro m member
          rcases List.mem_cons.mp member with rfl | member
          · exact isKind
          · exact (ihRest rfl).1 m member
  | _ => cases shape

theorem declarations_start (accepts : Accepts declarations line c ns d) (some : ns ≠ []) :
    c.Proper ∧
      ∃ more e, Accepts (recovering (.construct keywords) declaration) line c more e := by
  unfold declarations at accepts
  cases accepts with
  | stop _ => exact absurd rfl some
  | more holds one _ => exact ⟨seesMore_iff.mp holds, _, _, one⟩

/-- A source without constants and documentation of its own is a row of declarations. -/
theorem declarations_of_source (accepts : Accepts source line c ns d)
    (bare : ∀ n ∈ ns, n.kind ≠ .globalJavadoc ∧ n.kind ≠ .legacyConstant) :
    Accepts declarations line c ns d := by
  obtain ⟨first, c₁, middle, c₂, back, one, two, three, rfl⟩ := source_split accepts
  obtain ⟨kinds, stays⟩ := globalJavadoc_nodes one
  obtain ⟨kinds', stays'⟩ := constants_nodes two
  obtain rfl : first = [] := List.eq_nil_iff_forall_not_mem.mpr fun n member =>
    (bare n (List.mem_append_left _ member)).1 (kinds n member)
  obtain rfl : middle = [] := List.eq_nil_iff_forall_not_mem.mpr fun n member =>
    (bare n (by simp [member])).2 (kinds' n member)
  cases stays rfl
  cases stays' rfl
  exact three

/-- **A source with a declaration is read in the same way where more declarations may follow.** -/
theorem source_across {S : Seam} {front : List Token} (accepts : Accepts source line c ns d)
    (declares : ∃ n ∈ ns, n.kind ≠ .globalJavadoc ∧ n.kind ≠ .legacyConstant)
    (place : S.At front c c') (atSeam : d.remaining = 1) :
    ∃ d', S.At [] d d' ∧ ∀ {limit faults o}, Reads limit declarations line ⟨d', faults⟩ o →
      Reads limit source line ⟨c', faults⟩ (o.after ns) := by
  obtain ⟨first, c₁, middle, c₂, back, one, two, three, rfl⟩ := source_split accepts
  obtain ⟨n, member, notGlobal, notConstant⟩ := declares
  have member : n ∈ back := by
    rcases List.mem_append.mp member with member | member
    · exact absurd ((globalJavadoc_nodes one).1 n member) notGlobal
    · exact (List.mem_append.mp member).resolve_left
        fun member => notConstant ((constants_nodes two).1 n member)
  obtain ⟨proper, _, _, item⟩ := declarations_start three (List.ne_nil_of_mem member)
  obtain ⟨_, toFirst⟩ := one.moves
  obtain ⟨_, toSecond⟩ := two.moves
  obtain ⟨_, _, _, next⟩ := place.exists_at (toFirst.trans toSecond)
  have inFront : 1 < c₂.remaining := by
    have := next.proper_iff.mp proper
    have := next.remaining
    omega
  have agrees : ∀ look ∈ (globalJavadoc keywords).looks Rule.looks ++ constants.looks Rule.looks,
      S.Agrees c₂ look :=
    Seam.agrees_of_all_kept item next.ended (fun _ => proper) inFront opening_kept
  obtain ⟨_, _, next, one'⟩ := one.kept
    (fun look among => agrees look (List.mem_append_left _ among)) place ⟨_, toSecond⟩ inFront
  obtain ⟨_, _, next, two'⟩ := two.kept
    (fun look among => agrees look (List.mem_append_right _ among)) next ⟨[], .refl c₂⟩ inFront
  obtain ⟨d', last, onward⟩ := three.across_many declaration_chains next atSeam
  refine ⟨d', last, fun reads => ?_⟩
  rw [Outcome.after_append, Outcome.after_append]
  exact .seq (one'.reads _ _) (.seq (two'.reads _ _) (onward reads))

end Grammar.Entity

/-! ## What is lost between -/

theorem Token.getLast?_cons_or (t : Token) (ts : List Token) (before : Option Token) :
    (t :: ts).getLast?.or before = ts.getLast?.or (some t) := by
  rw [List.getLast?_cons]
  cases ts.getLast? <;> rfl

/-- A recovery gives up everything in front of the next construct or the end. -/
theorem Recovery.toConstruct_over {keywords : List String} {before : Option Token}
    {torn rest : List Token}
    (plain : ∀ t ∈ torn, t.kind ≠ .eof ∧ t.kind ≠ .lBrace ∧ t.kind ≠ .rBrace ∧
      startsConstruct keywords t = false)
    (onward : ∃ u more, rest = u :: more ∧ (more = [] ∨ startsConstruct keywords u = true)) :
    toConstruct keywords 0 before (torn ++ rest) = ⟨torn.getLast?.or before, rest⟩ := by
  induction torn generalizing before with
  | nil =>
      obtain ⟨u, more, rfl, either⟩ := onward
      match more with
      | [] => rfl
      | v :: more =>
          have starts := either.resolve_left (List.cons_ne_nil _ _)
          rw [List.nil_append, toConstruct]
          split
          · rfl
          · rename_i isKind
            rw [startsConstruct, isKind] at starts
            cases starts
          · rename_i isKind
            rw [startsConstruct, isKind] at starts
            cases starts
          · rw [if_pos ⟨rfl, starts⟩]
            rfl
  | cons t torn ih =>
      obtain ⟨notEnd, notOpen, notClose, noStart⟩ := plain t List.mem_cons_self
      have more : torn ++ rest ≠ [] := by
        obtain ⟨u, more, rfl, _⟩ := onward
        simp
      obtain ⟨u, tail, follows⟩ := List.exists_cons_of_ne_nil more
      rw [Token.getLast?_cons_or, ← ih fun x member => plain x (List.mem_cons_of_mem _ member),
        List.cons_append, follows, toConstruct]
      split
      · contradiction
      · contradiction
      · contradiction
      · rw [if_neg fun both => by simp [noStart] at both]

namespace Grammar.Entity

/-- What starts no declaration is given up as one error, and the declarations behind it are read. -/
theorem declarations_behind {torn back : List Token} {ns : List Node}
    (wanted : 2 ≤ limit)
    (plain : ∀ t ∈ torn, t.kind ≠ .eof ∧ t.kind ≠ .lBrace ∧ t.kind ≠ .rBrace ∧
      Recovery.startsConstruct keywords t = false)
    (ended : Token.Ended back)
    (accepts : ∀ before, ∃ d, Accepts declarations 0 ⟨before, back⟩ ns d)
    (before : Option Token) :
    ∃ d, Reads limit declarations 0 ⟨⟨before, torn ++ back⟩, []⟩
      (.nodes ((if torn = [] then [] else [Node.broken torn]) ++ ns)
        ⟨d, torn.head?.toList.map (Fault.mk .declaration)⟩) := by
  cases torn with
  | nil =>
      obtain ⟨d, reads⟩ := accepts before
      exact ⟨d, reads.reads limit []⟩
  | cons t later =>
      let next : Cursor := ⟨later.getLast?.or (some t), back⟩
      obtain ⟨d, reads⟩ := accepts next.before
      obtain ⟨notEnd, _, _, noStart⟩ := plain t List.mem_cons_self
      have broken : Reads limit declaration 0 ⟨⟨before, t :: (later ++ back)⟩, []⟩ _ :=
        declaration_breaks noStart
      have onward : ∃ u more, back = u :: more ∧
          (more = [] ∨ Recovery.startsConstruct keywords u = true) := by
        obtain ⟨u, more, rfl⟩ := List.exists_cons_of_ne_nil ended.ne_nil
        refine ⟨u, more, rfl, ?_⟩
        by_cases atEnd : u.kind = .eof
        · exact Or.inl (ended.eq_singleton atEnd)
        · exact Or.inr (startsConstruct_of_declarations reads atEnd)
      have resumed : Recovery.resume (.construct keywords) ⟨before, t :: (later ++ back)⟩
          ⟨before, t :: (later ++ back)⟩ = next := by
        rw [Recovery.resume_eq, Recovery.restart_self (by simp [ended.ne_nil])]
        exact Recovery.toConstruct_over
          (fun x member => plain x (List.mem_cons_of_mem _ member)) onward
      have moves : (Cursor.mk before (t :: (later ++ back))).Moves (t :: later) next :=
        ⟨rfl, (Token.getLast?_cons_or t later before).symm, fun _ => ended.ne_nil⟩
      have lost := broken.recovered_first wanted resumed moves (List.cons_ne_nil _ _)
      have holds : seesMore.holds 0 ⟨before, t :: (later ++ back)⟩ = true :=
        seesMore_iff.mpr notEnd
      exact ⟨d, .more holds lost (reads.reads limit _)⟩

end Grammar.Entity

/-! ## Texts -/

/-- The span further on, where its source stands under a text. -/
def Span.under (text : String) : Span → Span :=
  Span.moved (Position.below text).offset ((Position.below text).line - 1)

/-- The token further on, where its source stands under a text. -/
def Token.under (text : String) : Token → Token :=
  Token.moved (Position.below text).offset ((Position.below text).line - 1)

section Texts

variable {above between below : String} {front middle back : List Token}

theorem Token.lex_append (lexed : Token.lex above = .ok front)
    (lexedBelow : Token.lex below = .ok back) :
    Token.lex (above ++ "\n" ++ below) = .ok (front.dropLast ++ back.map (Token.under above)) := by
  rw [Token.lex_below lexed, Position.below_eq_moved above, Lexer.tokens_moved _ _ lexedBelow]
  rfl

/-- The tokens of three texts, each below the one before. -/
theorem Token.lex_append_append (lexed : Token.lex above = .ok front)
    (lexedBetween : Token.lex between = .ok middle) (lexedBelow : Token.lex below = .ok back) :
    Token.lex (above ++ "\n" ++ between ++ "\n" ++ below) =
      .ok (front.dropLast ++ (middle.dropLast.map (Token.under above) ++
        back.map (Token.under (above ++ "\n" ++ between)))) := by
  have some : middle ≠ [] := (Token.lex_inOrder lexedBetween).ended.ne_nil
  rw [Token.lex_append (Token.lex_append lexed lexedBetween) lexedBelow,
    List.dropLast_append_of_ne_nil (by simp [some]), ← List.map_dropLast, List.append_assoc]

theorem Position.below_offset_le (above between : String) :
    (Position.below above).offset ≤ (Position.below (above ++ "\n" ++ between)).offset := by
  have whole : (above ++ "\n" ++ between ++ "\n").toList =
      (above ++ "\n").toList ++ (between ++ "\n").toList := by
    simp only [String.toList_append, List.append_assoc]
  unfold Position.below
  rw [whole, Position.after_append]
  exact Position.offset_le_after _ _

theorem Token.start_under {t : Token} (member : t ∈ back.map (Token.under above)) :
    (Position.below above).offset ≤ t.span.start := by
  obtain ⟨t, _, rfl⟩ := List.mem_map.mp member
  exact Nat.le_add_left _ _

/-- The end of a source as a seam, in front of tokens that stand below it. -/
theorem Seam.exists_of_text {rest : List Token} (lexed : Token.lex above = .ok front)
    (some : rest ≠ []) (under : ∀ t ∈ rest, (Position.below above).offset ≤ t.span.start)
    (closed : ∀ t ∈ rest.head?, t.kind ≠ .lBrace) :
    ∃ S : Seam, S.rest = rest ∧
      S.At front.dropLast (Cursor.start front) (Cursor.start (front.dropLast ++ rest)) := by
  have ended := (Token.lex_inOrder lexed).ended
  obtain ⟨offset, _, _⟩ := Position.below_place above
  obtain ⟨t, later, rfl⟩ := List.exists_cons_of_ne_nil some
  have apart : Token.touches front.dropLast.getLast? t = false := by
    cases last : front.dropLast.getLast? with
    | none => rfl
    | some u =>
        have member := List.dropLast_subset _ (List.mem_of_getLast? last)
        have stops := (Lexer.tokens_between lexed u member).1.2
        have starts := under t List.mem_cons_self
        refine beq_false_of_ne ?_
        omega
  have split := List.dropLast_concat_getLast ended.ne_nil
  have ends : (front.getLast ended.ne_nil).kind = .eof := by
    rw [← split] at ended
    exact (ended.append (List.cons_ne_nil _ _)).2
  refine ⟨⟨front.dropLast.getLast?, front.getLast ended.ne_nil, t :: later, ends,
    t, later, rfl, closed t rfl, apart⟩, rfl, ⟨rfl, split.symm, rfl⟩, ?_, ended⟩
  exact Option.or_none

end Texts

/-- The declarations of a source stay the same under a text, further on. -/
theorem Grammar.Entity.declarations_under {below : String} {back : List Token} {ns : List Node}
    {d : Cursor} (lexed : Token.lex below = .ok back)
    (accepts : Accepts declarations 0 (Cursor.start back) ns d) (text : String)
    (before : Option Token) :
    ∃ d, Accepts declarations 0 ⟨before, back.map (Token.under text)⟩
      (ns.map (Node.mapSpans (Span.under text))) d := by
  have numbered : ∀ t ∈ back, 1 ≤ t.span.line ∧ 1 ≤ t.span.endLine := by
    intro t member
    obtain ⟨_, starts, forward, _⟩ := Lexer.tokens_between lexed t member
    exact ⟨starts, Nat.le_trans starts forward⟩
  have some : 1 ≤ (Position.below text).offset := by
    rw [(Position.below_place text).1]
    exact Nat.le_add_left 1 _
  exact accepts.further declarations_blind (Token.lex_inOrder lexed) numbered some before

/-- Tokens without braces and without one that may start a construct, under another text. -/
theorem Token.lost_of_plain {junk : List Token} (ended : Token.Ended junk)
    (plain : ∀ t ∈ junk, t.kind ∉ [.lBrace, .rBrace, .at, .javadoc] ∧
      ¬(t.kind = .word ∧ t.text ∈ Grammar.Entity.keywords)) (above : String) :
    ∀ t ∈ junk.dropLast.map (Token.under above), t.kind ≠ .eof ∧ t.kind ≠ .lBrace ∧
      t.kind ≠ .rBrace ∧ Recovery.startsConstruct Grammar.Entity.keywords t = false := by
  intro _ moved
  obtain ⟨t, member, rfl⟩ := List.mem_map.mp moved
  obtain ⟨kinds, noKeyword⟩ := plain t (List.dropLast_subset _ member)
  simp only [List.mem_cons, List.not_mem_nil, or_false, not_or] at kinds
  obtain ⟨notOpen, notClose, notOption, notJavadoc⟩ := kinds
  have proper : t.kind ≠ .eof := ended.proper_of_mem_dropLast member
  refine ⟨proper, notOpen, notClose, ?_⟩
  show Recovery.startsConstruct Grammar.Entity.keywords t = false
  unfold Recovery.startsConstruct
  split
  · contradiction
  · contradiction
  · rename_i isWord
    rw [List.contains_eq_mem, decide_eq_false_iff_not]
    exact fun among => noKeyword ⟨isWord, among⟩
  · rfl

/-- Neither what is lost nor a declaration starts with an open brace. -/
theorem Grammar.Entity.closed_of_declarations {torn rest : List Token} {ns : List Node}
    (lost : ∀ t ∈ torn, t.kind ≠ .eof ∧ t.kind ≠ .lBrace ∧ t.kind ≠ .rBrace ∧
      Recovery.startsConstruct Grammar.Entity.keywords t = false) (ended : Token.Ended rest)
    (accepts : ∃ d, Accepts declarations 0 ⟨none, rest⟩ ns d) :
    ∀ t ∈ (torn ++ rest).head?, t.kind ≠ .lBrace := by
  intro t first
  cases torn with
  | cons u torn =>
      obtain rfl : u = t := by simpa using first
      exact (lost u List.mem_cons_self).2.1
  | nil =>
      obtain ⟨u, more, rfl⟩ := List.exists_cons_of_ne_nil ended.ne_nil
      obtain rfl : u = t := by simpa using first
      obtain ⟨d, accepts⟩ := accepts
      intro opens
      have proper : u.kind ≠ .eof := by
        rw [opens]
        decide
      have starts : Recovery.startsConstruct keywords u = true :=
        startsConstruct_of_declarations accepts proper
      rw [Recovery.startsConstruct, opens] at starts
      cases starts

/-- The tokens of a source without errors are accepted up to the end. -/
theorem Parse.accepts_of_faultless {language : Language} {given : Nat} {tokens : List Token}
    (ended : Token.Ended tokens) (faultless : (Parse.ofTokens language given tokens).faults = []) :
    ∃ d, Accepts language.grammar 0 (Cursor.start tokens)
      (Parse.ofTokens language given tokens).tree.children d ∧ d.remaining = 1 := by
  obtain ⟨ns, last, reads, atEnd, equal⟩ := Parse.ofTokens_reads language given ended
  rw [equal] at faultless ⊢
  refine ⟨last.cursor, reads.accepts (by omega) faultless, ?_⟩
  have alone : last.cursor.ahead = _ := Cursor.ahead_eq_of_eof (reads.ended ended) atEnd
  unfold Cursor.remaining
  rw [alone]
  rfl

theorem Parse.ofTokens_concatenated {S : Seam} {given limit : Nat} {front torn rest : List Token}
    {ns : List Node} (wanted : 2 ≤ limit) (ended : Token.Ended front)
    (faultless : (Parse.ofTokens .entity given front).faults = [])
    (declares : ∃ n ∈ (Parse.ofTokens .entity given front).tree.children,
      n.kind ≠ .globalJavadoc ∧ n.kind ≠ .legacyConstant)
    (lost : ∀ t ∈ torn, t.kind ≠ .eof ∧ t.kind ≠ .lBrace ∧ t.kind ≠ .rBrace ∧
      Recovery.startsConstruct Grammar.Entity.keywords t = false)
    (endedRest : Token.Ended rest)
    (further : ∀ before, ∃ d, Accepts Grammar.Entity.declarations 0 ⟨before, rest⟩ ns d)
    (onward : S.rest = torn ++ rest)
    (place : S.At front.dropLast (Cursor.start front)
      (Cursor.start (front.dropLast ++ (torn ++ rest))))
    (endedWhole : Token.Ended (front.dropLast ++ (torn ++ rest))) :
    let r := Parse.ofTokens .entity limit (front.dropLast ++ (torn ++ rest))
    r.tree.children = (Parse.ofTokens .entity given front).tree.children ++
        ((if torn = [] then [] else [Node.broken torn]) ++ ns) ∧
      r.faults = torn.head?.toList.map (Fault.mk .declaration) := by
  obtain ⟨d, accepts, atSeam⟩ := Parse.accepts_of_faultless ended faultless
  obtain ⟨⟨before, ahead⟩, placeEnd, crossed⟩ :=
    Grammar.Entity.source_across accepts declares place atSeam
  obtain rfl : ahead = torn ++ rest := placeEnd.forks.ahead'.trans onward
  obtain ⟨e, behind⟩ :=
    Grammar.Entity.declarations_behind wanted lost endedRest further before
  have crossed := crossed behind
  obtain ⟨ns', last, reads, _, equal⟩ := Parse.ofTokens_reads .entity limit endedWhole
  rw [Nat.max_eq_left (by omega)] at reads
  cases reads.unique crossed
  rw [equal]
  exact ⟨rfl, rfl⟩

/-- **Two sources without errors, one below the other.** The first one has a declaration, and the
second one has no constants and no documentation of its own. Between them stands a text without
braces and without a token that may start a construct. The new source has the nodes of the first
one, an error node for the tokens of the text if it has any, and the nodes of the second one further
on; the first token of the text is the only error. -/
theorem Parse.concatenated {above between below : String} {givenAbove givenBelow limit : Nat}
    {p q : Parse} {junk : List Token} (wanted : 2 ≤ limit)
    (parsedAbove : Parse.ofSource? .entity givenAbove above = .ok p)
    (faultlessAbove : p.faults = [])
    (declares : ∃ n ∈ p.tree.children, n.kind ≠ .globalJavadoc ∧ n.kind ≠ .legacyConstant)
    (lexed : Token.lex between = .ok junk)
    (plain : ∀ t ∈ junk, t.kind ∉ [.lBrace, .rBrace, .at, .javadoc] ∧
      ¬(t.kind = .word ∧ t.text ∈ Grammar.Entity.keywords))
    (parsedBelow : Parse.ofSource? .entity givenBelow below = .ok q)
    (faultlessBelow : q.faults = [])
    (bare : ∀ n ∈ q.tree.children, n.kind ≠ .globalJavadoc ∧ n.kind ≠ .legacyConstant) :
    ∃ r, Parse.ofSource? .entity limit (above ++ "\n" ++ between ++ "\n" ++ below) = .ok r ∧
      r.tree.children = p.tree.children ++
        ((if junk.dropLast = [] then []
          else [Node.broken (junk.dropLast.map (Token.under above))]) ++
          q.tree.children.map (Node.mapSpans (Span.under (above ++ "\n" ++ between)))) ∧
      r.faults = (junk.dropLast.map (Token.under above)).head?.toList.map
        (Fault.mk .declaration) := by
  obtain ⟨front, lexedAbove, rfl⟩ := Parse.exists_tokens parsedAbove
  obtain ⟨back, lexedBelow, rfl⟩ := Parse.exists_tokens parsedBelow
  have whole := Token.lex_append_append lexedAbove lexed lexedBelow
  have ended := (Token.lex_inOrder lexedAbove).ended
  have ordered := Token.lex_inOrder lexedBelow
  refine ⟨_, Parse.ofSource?_of_lex whole .entity limit, ?_⟩
  -- the declarations of the second source, further on
  obtain ⟨_, accepts, _⟩ := Parse.accepts_of_faultless ordered.ended faultlessBelow
  have declarations := Grammar.Entity.declarations_of_source accepts bare
  have further := Grammar.Entity.declarations_under lexedBelow declarations
    (above ++ "\n" ++ between)
  have endedRest : Token.Ended (back.map (Token.under (above ++ "\n" ++ between))) :=
    ordered.ended.moved _ _
  -- what is lost between
  have lost := Token.lost_of_plain (Token.lex_inOrder lexed).ended plain above
  have under : ∀ t ∈ junk.dropLast.map (Token.under above) ++
      back.map (Token.under (above ++ "\n" ++ between)),
      (Position.below above).offset ≤ t.span.start := by
    intro t member
    rcases List.mem_append.mp member with member | member
    · exact Token.start_under member
    · exact Nat.le_trans (Position.below_offset_le above between) (Token.start_under member)
  obtain ⟨S, onward, place⟩ := Seam.exists_of_text lexedAbove (by simp [endedRest.ne_nil]) under
    (Grammar.Entity.closed_of_declarations lost endedRest (further none))
  have concatenated := Parse.ofTokens_concatenated wanted ended faultlessAbove declares lost
    endedRest further onward place (Token.lex_inOrder whole).ended
  simp only [List.map_eq_nil_iff] at concatenated
  exact concatenated

/-- A service without a block, the one declaration that an open brace would go on with. -/
def Parse.bareService : String := "service S for (A)"

/-- A text that starts no construct. -/
def Parse.strayWords : String := "to , nobody"

/-- An entity with documentation. -/
def Parse.documentedEntity : String := "/** Doc */ entity B \x7b x C \x7d"

/-- Between a service and an entity such a text is one error. -/
theorem Parse.concatenated_stray :
    ∃ p q r junk, Parse.ofSource? .entity 10 Parse.bareService = .ok p ∧
      Parse.ofSource? .entity 10 Parse.documentedEntity = .ok q ∧
      Token.lex Parse.strayWords = .ok junk ∧ junk.length = 4 ∧
      Parse.ofSource? .entity 2 (Parse.bareService ++ "\n" ++ Parse.strayWords ++ "\n" ++
        Parse.documentedEntity) = .ok r ∧
      r.tree.children = p.tree.children ++
        ((if junk.dropLast = [] then []
          else [Node.broken (junk.dropLast.map (Token.under Parse.bareService))]) ++
          q.tree.children.map
            (Node.mapSpans (Span.under (Parse.bareService ++ "\n" ++ Parse.strayWords)))) ∧
      r.faults = (junk.dropLast.map (Token.under Parse.bareService)).head?.toList.map
        (Fault.mk .declaration) := by
  obtain ⟨front, lexedAbove⟩ : ∃ tokens, Token.lex Parse.bareService = .ok tokens :=
    Token.exists_of_isOk (by decide +kernel)
  obtain ⟨back, lexedBelow⟩ : ∃ tokens, Token.lex Parse.documentedEntity = .ok tokens :=
    Token.exists_of_isOk (by decide +kernel)
  obtain ⟨junk, lexed⟩ : ∃ tokens, Token.lex Parse.strayWords = .ok tokens :=
    Token.exists_of_isOk (by decide +kernel)
  have parsedAbove := Parse.ofSource?_of_lex lexedAbove .entity 10
  have parsedBelow := Parse.ofSource?_of_lex lexedBelow .entity 10
  have computedAbove : (Token.lex Parse.bareService).toOption.all (fun ts =>
      (Parse.ofTokens .entity 10 ts).faults.isEmpty &&
        (Parse.ofTokens .entity 10 ts).tree.children.any fun n =>
          n.kind != .globalJavadoc && n.kind != .legacyConstant) = true := by decide +kernel
  have computedBelow : (Token.lex Parse.documentedEntity).toOption.all (fun ts =>
      (Parse.ofTokens .entity 10 ts).faults.isEmpty &&
        (Parse.ofTokens .entity 10 ts).tree.children.all fun n =>
          n.kind != .globalJavadoc && n.kind != .legacyConstant) = true := by decide +kernel
  have computedBetween : (Token.lex Parse.strayWords).toOption.all (fun ts =>
      ts.length == 4 && ts.all fun t => decide (t.kind ∉ [.lBrace, .rBrace, .at, .javadoc] ∧
        ¬(t.kind = .word ∧ t.text ∈ Grammar.Entity.keywords))) = true := by decide +kernel
  rw [lexedAbove] at computedAbove
  rw [lexedBelow] at computedBelow
  rw [lexed] at computedBetween
  obtain ⟨faultlessAbove, declares⟩ := Bool.and_eq_true_iff.mp computedAbove
  obtain ⟨faultlessBelow, bare⟩ := Bool.and_eq_true_iff.mp computedBelow
  obtain ⟨four, plain⟩ := Bool.and_eq_true_iff.mp computedBetween
  obtain ⟨n, member, kinds⟩ := List.any_eq_true.mp declares
  obtain ⟨r, parsed, nodes, faults⟩ :=
    Parse.concatenated (Nat.le_refl 2) parsedAbove (List.isEmpty_iff.mp faultlessAbove)
      ⟨n, member, by simpa using kinds⟩ lexed
      (fun t among => of_decide_eq_true (List.all_eq_true.mp plain t among)) parsedBelow
      (List.isEmpty_iff.mp faultlessBelow)
      (fun n among => by simpa using List.all_eq_true.mp bare n among)
  exact ⟨_, _, r, junk, parsedAbove, parsedBelow, lexed, beq_iff_eq.mp four, parsed, nodes, faults⟩

end EntityFlow
