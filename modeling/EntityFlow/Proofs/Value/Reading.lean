import EntityFlow.Proofs.Data.OrderedMap
import EntityFlow.Proofs.Grammar.Acceptance
import EntityFlow.Proofs.Token.Literals

/-!
# Reading written values

The tokens of a written value keep to the grammar of values, wherever they stand, and the node that
they form stands for the value (`Grammar.fits_value`). Items between commas are read alike in
brackets and in braces (`Grammar.accepts_commaTerminated`).
-/

namespace EntityFlow

namespace Grammar

/-! ## Single tokens -/

section Tokens

variable {line : Nat} {c : Cursor} {t u : Token} {rest : List Token}

@[simp] theorem holds_kind_zero (ahead : c.ahead = t :: rest) (k : Token.Kind) :
    (Look.kind 0 k).holds line c = (t.kind == k) := by
  simp [Look.holds, Cursor.nth, ahead]

@[simp] theorem holds_kind_one (ahead : c.ahead = t :: u :: rest) (k : Token.Kind) :
    (Look.kind 1 k).holds line c = (u.kind == k) := by
  simp [Look.holds, Cursor.nth, ahead]

theorem accepts_take (ahead : c.ahead = t :: rest) (more : rest ≠ []) :
    Accepts .take line c [] ⟨some t, rest⟩ := by
  obtain ⟨u, tail, rfl⟩ := List.exists_cons_of_ne_nil more
  obtain ⟨before, _⟩ := c
  cases ahead
  exact .take

theorem accepts_symbol {k : Token.Kind} (ahead : c.ahead = t :: rest) (known : t.kind = k)
    (more : rest ≠ []) : Accepts (symbol k) line c [] ⟨some t, rest⟩ := by
  refine .yes ?_ (accepts_take ahead more)
  rw [holds_kind_zero ahead, known, beq_self_eq_true]

/-- A node for a token alone. -/
theorem accepts_tree (k : Node.Kind) {body : Grammar}
    (accepts : Accepts body line c [] ⟨some t, rest⟩) (ahead : c.ahead = t :: rest)
    (more : rest ≠ []) (proper : t.kind ≠ .javadoc) :
    ∃ span, Accepts (tree k body) line c [⟨k, t.text, span, []⟩] ⟨some t, rest⟩ := by
  let n := Node.ofTokens k c ⟨some t, rest⟩ []
  have node : Accepts (tree k body) line c [n] ⟨some t, rest⟩ := .node .done accepts
  have moves : c.Moves [t] ⟨some t, rest⟩ := ⟨ahead, rfl, fun _ => more⟩
  have text : n.text = t.text := by
    show (Node.ofTokens k c ⟨some t, rest⟩ []).text = t.text
    unfold Node.ofTokens
    rw [moves.taken]
    simp [proper, String.join]
  refine ⟨n.span, ?_⟩
  rw [← text]
  exact node

theorem accepts_leaf (k : Node.Kind) (ahead : c.ahead = t :: rest) (more : rest ≠ [])
    (proper : t.kind ≠ .javadoc) :
    ∃ span, Accepts (leaf k) line c [⟨k, t.text, span, []⟩] ⟨some t, rest⟩ :=
  accepts_tree k (accepts_take ahead more) ahead more proper

/-- A name of one word. -/
theorem accepts_name (k : Node.Kind) (ahead : c.ahead = t :: u :: rest) (word : t.kind = .word)
    (other : u.kind ≠ .dot) :
    ∃ span, Accepts (name k) line c [⟨k, t.text, span, []⟩] ⟨some t, u :: rest⟩ := by
  have looks : (sees .word).holds line c = true := by
    rw [sees, holds_kind_zero ahead, word]
    rfl
  have ends : (Look.and (sees .dot) (.and (.kind 1 .word) .adjacent)).holds line
      ⟨some t, u :: rest⟩ = false := by
    rw [Look.holds, sees, holds_kind_zero rfl, beq_eq_false_iff_ne.mpr other, Bool.false_and]
  have more : u :: rest ≠ [] := List.cons_ne_nil _ _
  exact accepts_tree k (.yes looks (.seq (accepts_take ahead more) (.stop ends))) ahead more
    (by simp [word])

end Tokens

/-! ## Tokens by kind and text -/

/-- That tokens with the given kinds and texts keep to a grammar, wherever they stand, and form one
node with a property. -/
def Fits (g : Grammar) (lexemes : List (Token.Kind × String)) (P : Node → Prop) : Prop :=
  ∀ line c ts rest, c.ahead = ts ++ rest → ts.map Token.lexeme = lexemes → rest ≠ [] →
    ∃ n d, P n ∧ d.ahead = rest ∧ Accepts g line c [n] d

/-- Tokens that start with a known kind and text. -/
theorem of_lexeme_cons {ts : List Token} {k : Token.Kind} {text : String}
    {lexemes : List (Token.Kind × String)} (known : ts.map Token.lexeme = (k, text) :: lexemes) :
    ∃ span more, ts = ⟨k, text, span⟩ :: more ∧ more.map Token.lexeme = lexemes := by
  obtain ⟨⟨kind, text', span⟩, more, rfl, equal, knownMore⟩ := List.map_eq_cons_iff.mp known
  cases equal
  exact ⟨span, more, rfl, knownMore⟩

/-! ## Items between commas -/

section Items

variable {α : Type} {close : Token.Kind} {item : Grammar}
  {lexemes : α → List (Token.Kind × String)} {P : α → Node → Prop}

/-- The lexemes of items, those of the first one after `lead` and of every other one after a
comma. -/
def commas (lexemes : α → List (Token.Kind × String)) (lead : List (Token.Kind × String)) :
    List α → List (Token.Kind × String)
  | [] => []
  | x :: rest => lead ++ lexemes x ++ commas lexemes [(.comma, ",")] rest

/-- That a list of lexemes starts with one that is not of a kind. -/
def StartsOther (close : Token.Kind) (lexemes : List (Token.Kind × String)) : Prop :=
  ∃ k text more, lexemes = (k, text) :: more ∧ k ≠ close

theorem StartsOther.of_tokens {ls : List (Token.Kind × String)} {ts : List Token}
    (starts : StartsOther close ls) (known : ts.map Token.lexeme = ls) :
    ∃ t more, ts = t :: more ∧ (t.kind == close) = false := by
  obtain ⟨k, text, more, rfl, other⟩ := starts
  obtain ⟨span, tail, rfl, _⟩ := of_lexeme_cons known
  exact ⟨_, _, rfl, beq_eq_false_iff_ne.mpr other⟩

theorem accepts_moreItems {xs : List α} {line : Nat} {c : Cursor} {ts : List Token} {t : Token}
    {rest : List Token} (closes : t.kind = close) (notComma : close ≠ .comma)
    (starts : ∀ x ∈ xs, StartsOther close (lexemes x))
    (fits : ∀ x ∈ xs, item.Fits (lexemes x) (P x)) (ahead : c.ahead = ts ++ t :: rest)
    (known : ts.map Token.lexeme = commas lexemes [(.comma, ",")] xs) :
    ∃ ns d, List.Forall₂ P xs ns ∧ d.ahead = t :: rest ∧
      Accepts (many (.and (.kind 0 .comma) (.not (.kind 1 close))) (seq take item)) line c ns
        d := by
  induction xs generalizing c ts with
  | nil =>
      rw [List.map_eq_nil_iff.mp known, List.nil_append] at ahead
      refine ⟨[], c, .nil, ahead, .stop ?_⟩
      rw [Look.holds, holds_kind_zero ahead, closes, beq_eq_false_iff_ne.mpr notComma,
        Bool.false_and]
  | cons x xs ih =>
      obtain ⟨startsFirst, startsOthers⟩ := List.forall_mem_cons.mp starts
      obtain ⟨fitsFirst, fitsOthers⟩ := List.forall_mem_cons.mp fits
      -- the tokens are a comma, those of the item and those of the others
      obtain ⟨span, afterComma, rfl, knownAfter⟩ := of_lexeme_cons known
      obtain ⟨own, later, rfl, knownOwn, knownLater⟩ := List.map_eq_append_iff.mp knownAfter
      obtain ⟨u, us, rfl, other⟩ := startsFirst.of_tokens knownOwn
      have looks : (Look.and (.kind 0 .comma) (.not (.kind 1 close))).holds line c = true := by
        rw [Look.holds, holds_kind_zero ahead, Look.holds, holds_kind_one ahead, other]
        rfl
      let behind : Cursor := ⟨some ⟨.comma, ",", span⟩, u :: us ++ later ++ t :: rest⟩
      have toItem : Accepts .take line c [] behind := accepts_take ahead (by simp)
      have aheadBehind : behind.ahead = u :: us ++ (later ++ t :: rest) := List.append_assoc _ _ _
      obtain ⟨n, d, holds, aheadItem, accepts⟩ :=
        fitsFirst line behind _ _ aheadBehind knownOwn (by simp)
      obtain ⟨ns, e, all, aheadMore, acceptsMore⟩ := ih startsOthers fitsOthers aheadItem knownLater
      exact ⟨n :: ns, e, .cons holds all, aheadMore, .more looks (.seq toItem accepts) acceptsMore⟩

/-- Items between commas in front of a closing token. -/
theorem accepts_commaTerminated {xs : List α} {line : Nat} {c : Cursor} {ts rest : List Token}
    {t : Token} (closes : t.kind = close) (notComma : close ≠ .comma)
    (starts : ∀ x ∈ xs, StartsOther close (lexemes x))
    (fits : ∀ x ∈ xs, item.Fits (lexemes x) (P x)) (ahead : c.ahead = ts ++ t :: rest)
    (known : ts.map Token.lexeme = commas lexemes [] xs) :
    ∃ ns d, List.Forall₂ P xs ns ∧ d.ahead = t :: rest ∧
      Accepts (commaTerminated close item) line c ns d := by
  cases xs with
  | nil =>
      rw [List.map_eq_nil_iff.mp known, List.nil_append] at ahead
      refine ⟨[], c, .nil, ahead, .no ?_ .done⟩
      rw [Look.holds, holds_kind_zero ahead, closes, beq_self_eq_true]
      rfl
  | cons x xs =>
      obtain ⟨startsFirst, startsOthers⟩ := List.forall_mem_cons.mp starts
      obtain ⟨fitsFirst, fitsOthers⟩ := List.forall_mem_cons.mp fits
      obtain ⟨own, later, rfl, knownOwn, knownLater⟩ := List.map_eq_append_iff.mp known
      obtain ⟨u, us, rfl, other⟩ := startsFirst.of_tokens knownOwn
      rw [List.append_assoc] at ahead
      have looks : (Look.not (.kind 0 close)).holds line c = true := by
        rw [Look.holds, holds_kind_zero ahead, other]
        rfl
      obtain ⟨n, d, holds, aheadItem, accepts⟩ := fitsFirst line c _ _ ahead knownOwn (by simp)
      obtain ⟨ns, e, all, aheadMore, acceptsMore⟩ :=
        accepts_moreItems closes notComma startsOthers fitsOthers aheadItem knownLater
      have noComma : (Look.kind 0 .comma).holds line e = false := by
        rw [holds_kind_zero aheadMore, closes]
        exact beq_eq_false_iff_ne.mpr notComma
      refine ⟨n :: ns, e, .cons holds all, aheadMore, .yes looks (.seq accepts ?_)⟩
      rw [← List.append_nil ns]
      exact .seq acceptsMore (.no noComma .done)

/-- Items between commas in brackets of a kind. -/
theorem accepts_bracketed {xs : List α} (line : Nat) {c : Cursor} {ts rest : List Token}
    {opening : Token.Kind} {left right : String} (notComma : close ≠ .comma)
    (starts : ∀ x ∈ xs, StartsOther close (lexemes x))
    (fits : ∀ x ∈ xs, item.Fits (lexemes x) (P x)) (ahead : c.ahead = ts ++ rest)
    (known : ts.map Token.lexeme =
      (opening, left) :: commas lexemes [] xs ++ [(close, right)]) (more : rest ≠ []) :
    c.current.kind = opening ∧ ∃ ns d, List.Forall₂ P xs ns ∧ d.ahead = rest ∧
      Accepts (list [symbol opening, commaTerminated close item, symbol close]) line c ns d := by
  obtain ⟨span, later, rfl, knownLater⟩ := of_lexeme_cons known
  obtain ⟨own, closing, rfl, knownOwn, knownClosing⟩ := List.map_eq_append_iff.mp knownLater
  obtain ⟨place, none, rfl, nothing⟩ := of_lexeme_cons knownClosing
  rw [List.map_eq_nil_iff.mp nothing, List.cons_append, List.append_assoc] at ahead
  let inside : Cursor := ⟨some ⟨opening, left, span⟩, own ++ ⟨close, right, place⟩ :: rest⟩
  have toItems : Accepts (symbol opening) line c [] inside := accepts_symbol ahead rfl (by simp)
  obtain ⟨ns, d, all, aheadClosing, acceptsItems⟩ : ∃ ns d, List.Forall₂ P xs ns ∧
      d.ahead = ⟨close, right, place⟩ :: rest ∧
      Accepts (commaTerminated close item) line inside ns d :=
    accepts_commaTerminated rfl notComma starts fits rfl knownOwn
  have toRest : Accepts (symbol close) line d [] ⟨some ⟨close, right, place⟩, rest⟩ :=
    accepts_symbol aheadClosing rfl more
  refine ⟨?_, ns, ⟨some ⟨close, right, place⟩, rest⟩, all, rfl, ?_⟩
  · unfold Cursor.current
    rw [ahead]
    rfl
  · rw [← List.nil_append ns, ← List.append_nil ns]
    exact .seq toItems (.seq acceptsItems toRest)

end Items

/-! ## Values -/

/-- The lexemes of an entry. -/
def entryLexeme (entry : String × Value) : List (Token.Kind × String) :=
  (.doubleQuoted, String.ofList (Text.quoted '"' entry.1.toList)) :: (.colon, ":") ::
    entry.2.lexemes

theorem itemLexemes_eq (lead : List (Token.Kind × String)) (items : List Value) :
    Value.itemLexemes lead items = commas Value.lexemes lead items := by
  induction items generalizing lead with
  | nil => rw [Value.itemLexemes, commas]
  | cons item rest ih => rw [Value.itemLexemes, commas, ih]

theorem entryLexemes_eq (lead : List (Token.Kind × String)) (entries : List (String × Value)) :
    Value.entryLexemes lead entries = commas entryLexeme lead entries := by
  induction entries generalizing lead with
  | nil => rw [Value.entryLexemes, commas]
  | cons entry rest ih =>
      rw [Value.entryLexemes, commas, ih, entryLexeme]
      simp

/-- A value starts with none of the tokens that end a list. -/
theorem startsOther_lexemes (v : Value) : StartsOther .rBracket v.lexemes := by
  cases v with
  | string => exact ⟨_, _, _, by rw [Value.lexemes], by decide⟩
  | integer => exact ⟨_, _, _, by rw [Value.lexemes], by decide⟩
  | decimal => exact ⟨_, _, _, by rw [Value.lexemes], by decide⟩
  | boolean => exact ⟨_, _, _, by rw [Value.lexemes], by decide⟩
  | sequence => exact ⟨_, _, _, by rw [Value.lexemes]; rfl, by decide⟩
  | mapping => exact ⟨_, _, _, by rw [Value.lexemes]; rfl, by decide⟩

/-- The property of a node to stand for a value. -/
def StandsFor (v : Value) (n : Node) : Prop := n.toValue = v

/-- The property of a node to stand for an entry of a mapping. -/
def StandsForEntry (entry : String × Value) (n : Node) : Prop :=
  ∃ text span key value, n = ⟨.pair, text, span, [key, value]⟩ ∧ key.keyText = entry.1 ∧
    value.toValue = entry.2

/-- A token that is a value by itself. -/
theorem fits_literal (kind : Node.Kind) {k : Token.Kind} {text : String} {v : Value}
    (single : k ≠ .lBracket ∧ k ≠ .lBrace ∧ k ≠ .javadoc)
    (chosen : ∀ {before span rest ns d},
      Accepts (leaf kind) 0 ⟨before, ⟨k, text, span⟩ :: rest⟩ ns d →
      Accepts simpleValue 0 ⟨before, ⟨k, text, span⟩ :: rest⟩
        [Node.ofTokens .value ⟨before, ⟨k, text, span⟩ :: rest⟩ d ns] d)
    (stands : ∀ span, Node.toValue ⟨kind, text, span, []⟩ = v) :
    Fits value [(k, text)] (StandsFor v) := by
  intro line c ts rest ahead known more
  obtain ⟨span, tail, rfl, none⟩ := of_lexeme_cons known
  rw [List.map_eq_nil_iff.mp none] at ahead
  obtain ⟨noBracket, noBrace, proper⟩ := single
  obtain ⟨before, _⟩ := c
  cases ahead
  obtain ⟨place, accepts⟩ : ∃ place, Accepts (leaf kind) 0 ⟨before, ⟨k, text, span⟩ :: rest⟩
      [⟨kind, text, place, []⟩] ⟨some ⟨k, text, span⟩, rest⟩ :=
    accepts_leaf kind (t := ⟨k, text, span⟩) rfl more proper
  refine ⟨_, _, ?_, rfl, .call (.no ?_ (.no ?_ (chosen accepts)))⟩
  · show Node.toValue ⟨.value, _, _, [_]⟩ = v
    rw [Node.toValue, Node.firstValue, stands]
  · exact beq_eq_false_iff_ne.mpr noBracket
  · exact beq_eq_false_iff_ne.mpr noBrace

/-- The values of nodes that stand for values. -/
theorem toValues_eq {items : List Value} {ns : List Node}
    (stand : List.Forall₂ StandsFor items ns) : Node.toValues ns = items := by
  induction stand with
  | nil => rw [Node.toValues]
  | cons first _ ih => rw [Node.toValues, first, ih]

/-- The entries of nodes that stand for entries with distinct keys. -/
theorem toEntries_eq {entries : List (String × Value)} {ns : List Node}
    (stand : List.Forall₂ StandsForEntry entries ns) {m : OrderedMap Value}
    (distinct : (m.keys ++ entries.map (·.1)).Nodup) : Node.toEntries m ns = m ++ entries := by
  induction stand generalizing m with
  | nil => rw [Node.toEntries, List.append_nil]
  | @cons entry n entries ns first _ ih =>
      obtain ⟨text, span, key, value, rfl, known, stands⟩ := first
      have free : entry.1 ∉ m.keys := by
        intro member
        have apart := (List.nodup_append.mp distinct).2.2
        exact apart entry.1 member entry.1 List.mem_cons_self rfl
      rw [Node.toEntries, known, stands, OrderedMap.put_of_not_mem free]
      refine (ih ?_).trans (List.append_assoc _ _ _)
      simpa [OrderedMap.keys] using distinct

/-- The tokens of an entry are read as its key and its value. -/
theorem fits_pair {entry : String × Value}
    (fits : Fits value entry.2.lexemes (StandsFor entry.2)) :
    Fits pair (entryLexeme entry) (StandsForEntry entry) := by
  intro line c ts rest ahead known more
  obtain ⟨keySpan, afterKey, rfl, knownAfter⟩ := of_lexeme_cons known
  obtain ⟨colonSpan, own, rfl, knownOwn⟩ := of_lexeme_cons knownAfter
  obtain ⟨before, _⟩ := c
  cases ahead
  let key : Token := ⟨.doubleQuoted, String.ofList (Text.quoted '"' entry.1.toList), keySpan⟩
  let colon : Token := ⟨.colon, ":", colonSpan⟩
  obtain ⟨place, acceptsKey⟩ :
      ∃ place, Accepts (leaf .doubleQuoted) line ⟨before, key :: colon :: (own ++ rest)⟩
        [⟨.doubleQuoted, key.text, place, []⟩] ⟨some key, colon :: (own ++ rest)⟩ :=
    accepts_leaf .doubleQuoted rfl (by simp) (by simp [key])
  have acceptsColon : Accepts (symbol .colon) line ⟨some key, colon :: (own ++ rest)⟩ []
      ⟨some colon, own ++ rest⟩ := accepts_symbol rfl rfl (by simp [more])
  obtain ⟨n, d, stands, aheadRest, acceptsValue⟩ :=
    fits line ⟨some colon, own ++ rest⟩ own rest rfl knownOwn more
  refine ⟨_, d, ?_, aheadRest, .node .done
    (.seq (.no rfl (.no rfl (.yes rfl acceptsKey))) (.seq acceptsColon acceptsValue))⟩
  refine ⟨_, _, _, _, rfl, ?_, stands⟩
  show Node.unquoted '"' (String.ofList (Text.quoted '"' entry.1.toList)) = entry.1
  unfold Node.unquoted
  rw [String.toList_ofList, Text.unquote_quoted (by decide), String.ofList_toList]

/-- The tokens of a written value keep to the grammar of values and form a node that stands for
it. -/
theorem fits_value {v : Value} (written : v.Written) :
    Fits value v.lexemes (StandsFor v) := by
  induction written with
  | string =>
      rw [Value.lexemes]
      refine fits_literal .doubleQuoted (by decide)
        (fun accepts => .node .done (.no rfl (.yes rfl accepts))) fun span => ?_
      rw [Node.toValue, Node.leafValue, Node.unquoted, String.toList_ofList,
        Text.unquote_quoted (by decide), String.ofList_toList]
      all_goals simp
  | @integer n =>
      rw [Value.lexemes]
      refine fits_literal .int (by decide)
        (fun accepts => .node .done (.no rfl (.no rfl (.yes rfl accepts)))) fun span => ?_
      rw [Node.toValue, Node.leafValue, Integer.read?_text]
      all_goals simp
  | @decimal d places fits =>
      rw [Value.lexemes]
      refine fits_literal .number (by decide)
        (fun accepts => .node .done (.no rfl (.no rfl (.no rfl (.yes rfl accepts))))) fun span => ?_
      rw [Node.toValue, Node.leafValue, String.toList_ofList, Decimal.read?_plain places fits]
      all_goals simp
  | @boolean b =>
      rw [Value.lexemes]
      cases b with
      | true =>
          refine fits_literal .trueLiteral (by decide)
            (fun accepts => .node .done
              (.no rfl (.no rfl (.no rfl (.no rfl (.yes rfl accepts)))))) fun span => ?_
          rw [Node.toValue, Node.leafValue]
          all_goals simp
      | false =>
          refine fits_literal .falseLiteral (by decide)
            (fun accepts => .node .done
              (.no rfl (.no rfl (.no rfl (.no rfl (.no rfl (.yes rfl accepts))))))) fun span => ?_
          rw [Node.toValue, Node.leafValue]
          all_goals simp
  | @sequence items _ ih =>
      intro line c ts rest ahead known more
      rw [Value.lexemes, itemLexemes_eq] at known
      obtain ⟨opening, ns, d, stand, aheadRest, accepts⟩ := accepts_bracketed 0 (by decide)
        (fun item _ => startsOther_lexemes item) ih ahead known more
      have looks : (sees .lBracket).holds 0 c = true := by
        rw [sees, Look.holds, Cursor.nth_zero, opening]
        rfl
      refine ⟨_, d, ?_, aheadRest, .call (.yes looks (.node .done accepts))⟩
      show Node.toValue ⟨.array, _, _, ns⟩ = .sequence items
      rw [Node.toValue, toValues_eq stand]
  | @mapping entries _ distinct _ ih =>
      intro line c ts rest ahead known more
      rw [Value.lexemes, entryLexemes_eq] at known
      obtain ⟨opening, ns, d, stand, aheadRest, accepts⟩ := accepts_bracketed 0 (by decide)
        (fun entry _ => ⟨_, _, _, rfl, by decide⟩)
        (fun entry member => fits_pair (ih entry member)) ahead known more
      have noBracket : (sees .lBracket).holds 0 c = false := by
        rw [sees, Look.holds, Cursor.nth_zero, opening]
        rfl
      have looks : (sees .lBrace).holds 0 c = true := by
        rw [sees, Look.holds, Cursor.nth_zero, opening]
        rfl
      refine ⟨_, d, ?_, aheadRest, .call (.no noBracket (.yes looks (.node .done accepts)))⟩
      show Node.toValue ⟨.object, _, _, ns⟩ = .mapping entries
      have apart : ((OrderedMap.empty : OrderedMap Value).keys ++ entries.map (·.1)).Nodup := by
        simpa [OrderedMap.empty, OrderedMap.keys] using distinct
      rw [Node.toValue, toEntries_eq stand apart]
      rfl

end Grammar

end EntityFlow
