import EntityFlow.Proofs.Printing.Readback

/-!
# Printing and parsing of entities

An outline says what entities declare: names, tables, and fields with validations or with fields of
their own, to any depth. `Outline.printEntities` prints outlines with one field a line, and parsing
gives back their tree and no faults (`Outline.parse_printEntities`), whatever words are the names.
-/

namespace EntityFlow.Outline

/-! ## Outlines -/

/-- A validation; its argument may hold digits. -/
structure Validation where
  name : Identifier
  argument : Option Digits

/-- A name with a type, which may be an array type. -/
structure Typed where
  name : Identifier
  type : Identifier
  array : Bool

/-- A field with validations, or one that is an entity of its own. -/
inductive Field
  | plain (head : Typed) (validations : List Validation)
  | nested (head : Typed) (table : Option Identifier) (fields : List Field)

/-- An entity. -/
structure Entity where
  name : Identifier
  table : Option Identifier
  fields : List Field

/-! ## Printing -/

/-- The pieces of digits; there is none if there are no digits. -/
def digitsPieces (n : Digits) : List Piece :=
  if some : n.text ≠ "" then [⟨.none, .digits n some⟩] else []

/-- The pieces of a validation. -/
def Validation.pieces (v : Validation) : List Piece :=
  .word .space v.name ::
    match v.argument with
    | none => []
    | some n => .symbol .none .lParen :: (digitsPieces n ++ [.symbol .none .rParen])

/-- The pieces behind the name of an array type. -/
def arrayPieces (array : Bool) : List Piece :=
  if array then [.symbol .none .lBracket, .symbol .none .rBracket] else []

/-- The pieces of a name with its type, on a new line. -/
def Typed.pieces (depth : Nat) (t : Typed) : List Piece :=
  .word (.line depth) t.name :: .word .space t.type :: arrayPieces t.array

/-- The pieces of a table name. -/
def tablePieces : Option Identifier → List Piece
  | none => []
  | some t => [.symbol .space .lParen, .word .none t, .symbol .none .rParen]

/-- The pieces of a table name and a block. -/
def bodyPieces (depth : Nat) (table : Option Identifier) (items : List Piece) : List Piece :=
  tablePieces table ++ Piece.block depth items

mutual

/-- The pieces of a field, on a new line. -/
def Field.pieces (depth : Nat) : Field → List Piece
  | .plain head validations => head.pieces depth ++ validations.flatMap Validation.pieces
  | .nested head table fields =>
      head.pieces depth ++ bodyPieces depth table (Field.listPieces (depth + 1) fields)

/-- The pieces of some fields. -/
def Field.listPieces (depth : Nat) : List Field → List Piece
  | [] => []
  | f :: rest => f.pieces depth ++ Field.listPieces depth rest

end

/-- The pieces of an entity. -/
def Entity.pieces (lead : Gap) (e : Entity) : List Piece :=
  .keyword lead "entity" :: .word .space e.name ::
    bodyPieces 0 e.table (Field.listPieces 1 e.fields)

/-- The pieces of some entities, each on a new line but the first one. -/
def Entity.listPieces (lead : Gap) : List Entity → List Piece
  | [] => []
  | e :: rest => e.pieces lead ++ Entity.listPieces (.line 0) rest

/-- The source text of some entities. -/
def printEntities (entities : List Entity) : String :=
  Piece.print (Entity.listPieces .none entities)

/-! ## The tree of an outline -/

/-- The text of a validation. -/
def Validation.text (v : Validation) : String :=
  v.name.text ++
    match v.argument with
    | none => ""
    | some n => "(" ++ n.text ++ ")"

/-- The text of a type. -/
def Typed.typeText (t : Typed) : String := t.type.text ++ if t.array then "[]" else ""

/-- The text of a table name with its parentheses. -/
def tableText : Option Identifier → String
  | none => ""
  | some t => "(" ++ t.text ++ ")"

/-- The text of a table name and a block. -/
def bodyText (table : Option Identifier) (items : String) : String :=
  tableText table ++ ("\x7b" ++ items ++ "\x7d")

mutual

/-- The text of a field. -/
def Field.text : Field → String
  | .plain head validations =>
      head.name.text ++ head.typeText ++ String.join (validations.map Validation.text)
  | .nested head table fields =>
      head.name.text ++ head.typeText ++ bodyText table (Field.listText fields)

/-- The text of some fields. -/
def Field.listText : List Field → String
  | [] => ""
  | f :: rest => f.text ++ Field.listText rest

end

/-- The text of an entity. -/
def Entity.text (e : Entity) : String :=
  "entity" ++ e.name.text ++ bodyText e.table (Field.listText e.fields)

/-- The tree of a validation. -/
def Validation.tree (v : Validation) : Node :=
  .plain .fieldValidation v.text
    (.plain .fieldValidationName v.name.text [] ::
      match v.argument with
      | none => []
      | some n => [.plain .fieldValidationValue n.text []])

/-- The trees of a name and its type. -/
def Typed.trees (t : Typed) : List Node :=
  [.plain .fieldName t.name.text [],
    .plain .fieldType t.typeText
      (.plain .id t.type.text [] :: if t.array then [.plain .arrayMarker "[]" []] else [])]

/-- The tree of a table name, if there is one. -/
def tableTrees : Option Identifier → List Node
  | none => []
  | some t => [.plain .tableName t.text []]

mutual

/-- The tree of a field. -/
def Field.tree : Field → Node
  | .plain head validations =>
      .plain .field (Field.plain head validations).text
        (head.trees ++ validations.map Validation.tree)
  | .nested head table fields =>
      .plain .field (Field.nested head table fields).text
        (head.trees ++
          [.plain .nestedField (bodyText table (Field.listText fields))
            (tableTrees table ++ Field.trees fields)])

/-- The trees of some fields. -/
def Field.trees : List Field → List Node
  | [] => []
  | f :: rest => f.tree :: Field.trees rest

end

/-- The tree of an entity. -/
def Entity.tree (e : Entity) : Node :=
  .plain .entity e.text
    (.plain .entityName e.name.text [] :: (tableTrees e.table ++ Field.trees e.fields))

/-- The tree of a source of entities. -/
def entitiesTree (entities : List Entity) : Node :=
  .plain .zdl (String.join (entities.map Entity.text)) (entities.map Entity.tree)

/-! ## Texts -/

theorem text_digitsPieces (n : Digits) : Piece.text (digitsPieces n) = n.text := by
  unfold digitsPieces
  split
  · exact Piece.text_singleton _
  · rename_i none
    rw [Decidable.not_not.mp none]
    rfl

theorem Validation.text_pieces (v : Validation) : Piece.text v.pieces = v.text := by
  unfold pieces text
  cases v.argument with
  | none => simp
  | some n => simp [Piece.text_append, text_digitsPieces, Token.Kind.symbol, String.append_assoc]

theorem Validation.text_flatMap_pieces (vs : List Validation) :
    Piece.text (vs.flatMap pieces) = String.join (vs.map text) := by
  induction vs with
  | nil => rfl
  | cons v vs ih =>
      rw [List.flatMap_cons, Piece.text_append, v.text_pieces, ih, List.map_cons,
        String.join_cons]

theorem text_arrayPieces (array : Bool) :
    Piece.text (arrayPieces array) = if array then "[]" else "" := by
  cases array <;> rfl

theorem text_tablePieces (table : Option Identifier) :
    Piece.text (tablePieces table) = tableText table := by
  cases table <;> simp [tablePieces, tableText, Token.Kind.symbol, String.append_assoc]

theorem text_bodyPieces (depth : Nat) (table : Option Identifier) (items : List Piece) :
    Piece.text (bodyPieces depth table items) = bodyText table (Piece.text items) := by
  rw [bodyPieces, bodyText, Piece.text_append, text_tablePieces, Piece.text_block]

theorem Typed.text_pieces (depth : Nat) (t : Typed) :
    Piece.text (t.pieces depth) = t.name.text ++ t.typeText := by
  simp [pieces, typeText, text_arrayPieces]

mutual

theorem Field.text_pieces (depth : Nat) : (f : Field) → Piece.text (f.pieces depth) = f.text
  | .plain head validations => by
      rw [Field.pieces, Field.text, Piece.text_append, head.text_pieces,
        Validation.text_flatMap_pieces]
  | .nested head table fields => by
      rw [Field.pieces, Field.text, Piece.text_append, head.text_pieces, text_bodyPieces,
        Field.text_listPieces]

theorem Field.text_listPieces (depth : Nat) :
    (fs : List Field) → Piece.text (Field.listPieces depth fs) = Field.listText fs
  | [] => rfl
  | f :: rest => by
      rw [Field.listPieces, Field.listText, Piece.text_append, Field.text_pieces,
        Field.text_listPieces]

end

theorem Entity.text_pieces (lead : Gap) (e : Entity) : Piece.text (e.pieces lead) = e.text := by
  simp [pieces, text, text_bodyPieces, Field.text_listPieces, String.append_assoc]

theorem Entity.text_listPieces (lead : Gap) (es : List Entity) :
    Piece.text (listPieces lead es) = String.join (es.map text) := by
  induction es generalizing lead with
  | nil => rfl
  | cons e es ih =>
      rw [listPieces, Piece.text_append, e.text_pieces, ih, List.map_cons, String.join_cons]

/-! ## Layout -/

theorem Validation.tidy_pieces (v : Validation) : Piece.Tidy v.pieces := by
  refine ⟨?_, by simp [pieces, Piece.word, Gap.some]⟩
  unfold pieces
  cases v.argument with
  | none => exact .singleton _
  | some n =>
      refine .cons_cons (Piece.parted_symbol rfl) ?_
      unfold digitsPieces
      split
      · exact .cons_cons (Piece.symbol_parted _)
          (.cons_cons (Piece.parted_symbol rfl) (.singleton _))
      · exact .cons_cons (Piece.symbol_parted _) (.singleton _)

theorem Typed.tidy_pieces (depth : Nat) (t : Typed) : Piece.Tidy (t.pieces depth) := by
  refine .cons rfl ⟨?_, by simp [Piece.word, Gap.some]⟩
  cases t.array with
  | false => exact .singleton _
  | true =>
      exact .cons_cons (Piece.parted_symbol rfl)
        (.cons_cons (Piece.symbol_parted _) (.singleton _))

theorem tidy_tablePieces (table : Option Identifier) : Piece.Tidy (tablePieces table) := by
  cases table with
  | none => exact .nil
  | some t =>
      exact ⟨.cons_cons (Piece.symbol_parted _)
        (.cons_cons (Piece.parted_symbol rfl) (.singleton _)), by simp [tablePieces, Piece.symbol, Gap.some]⟩

theorem tidy_bodyPieces (depth : Nat) (table : Option Identifier) {items : List Piece}
    (tidy : Piece.Tidy items) : Piece.Tidy (bodyPieces depth table items) :=
  (tidy_tablePieces table).append (.block depth tidy)

mutual

theorem Field.tidy_pieces (depth : Nat) : (f : Field) → Piece.Tidy (f.pieces depth)
  | .plain head validations => by
      rw [Field.pieces]
      exact (head.tidy_pieces depth).append (.flatMap fun v _ => v.tidy_pieces)
  | .nested head table fields => by
      rw [Field.pieces]
      exact (head.tidy_pieces depth).append
        (tidy_bodyPieces depth table (Field.tidy_listPieces (depth + 1) fields))

theorem Field.tidy_listPieces (depth : Nat) :
    (fs : List Field) → Piece.Tidy (Field.listPieces depth fs)
  | [] => .nil
  | f :: rest => by
      rw [Field.listPieces]
      exact (Field.tidy_pieces depth f).append (Field.tidy_listPieces depth rest)

end

/-- Behind the keyword an entity can be printed in a row. -/
theorem Entity.tidy_tail (e : Entity) :
    Piece.Tidy (.word .space e.name :: bodyPieces 0 e.table (Field.listPieces 1 e.fields)) :=
  .cons rfl (tidy_bodyPieces 0 e.table (Field.tidy_listPieces 1 e.fields))

theorem Entity.tidy_listPieces (depth : Nat) (es : List Entity) :
    Piece.Tidy (listPieces (.line depth) es) := by
  induction es generalizing depth with
  | nil => exact .nil
  | cons e es ih =>
      have own : Piece.Tidy (e.pieces (.line depth)) := .cons rfl e.tidy_tail
      exact own.append (ih 0)

theorem Entity.apart_listPieces (es : List Entity) : Piece.Apart (listPieces .none es) := by
  cases es with
  | nil => exact .nil
  | cons e es =>
      have own : Piece.Apart (e.pieces .none) := e.tidy_tail.apart_append (.singleton _)
      exact (tidy_listPieces 0 es).apart_append own

/-! ## Reading back -/

open Grammar (ReadsBack)

section Parts

variable {line : Nat} {p : Position} {rest items : List Piece} {ns : List Node}

/-- What may stand behind a field: a field on a new line or the end of the block. -/
structure EndsField (rest : List Piece) : Prop where
  kind : Piece.kindAt rest 0 = .word ∨ Piece.kindAt rest 0 = .rBrace
  broken : ∀ x ∈ rest.head?, x.gap.flat = false

/-- A word or the end of a block is no other token. -/
theorem sees_foretold {k : Token.Kind}
    (kind : Piece.kindAt rest 0 = .word ∨ Piece.kindAt rest 0 = .rBrace)
    (other : k ≠ .word ∧ k ≠ .rBrace) : (Grammar.sees k).foretold rest = some false := by
  have differs : Piece.kindAt rest 0 ≠ k := by
    rcases kind with word | brace
    · rw [word]
      exact other.1.symm
    · rw [brace]
      exact other.2.symm
  show some (Piece.kindAt rest 0 == k) = some false
  rw [beq_eq_false_iff_ne.mpr differs]

theorem kindAt_validations (vs : List Validation) (ends : EndsField rest) :
    Piece.kindAt (vs.flatMap Validation.pieces ++ rest) 0 = .word ∨
      Piece.kindAt (vs.flatMap Validation.pieces ++ rest) 0 = .rBrace := by
  cases vs with
  | nil => exact ends.kind
  | cons v vs => exact .inl rfl

theorem argument_readsBack (n : Digits) {gap : Gap} :
    (Grammar.tree .fieldValidationValue (.call .argument)).ReadsBack line p (digitsPieces n)
      (.symbol gap .rParen :: rest) [.plain .fieldValidationValue n.text []] := by
  rw [← text_digitsPieces]
  refine .tree (.call ?_)
  unfold digitsPieces
  split
  · exact .more_nothing rfl (.no rfl .take) (.stop rfl)
  · exact .stop rfl

theorem Validation.readsBack (v : Validation)
    (kind : Piece.kindAt rest 0 = .word ∨ Piece.kindAt rest 0 = .rBrace) :
    Grammar.validation.ReadsBack line p v.pieces rest [v.tree] := by
  obtain ⟨name, argument⟩ := v
  have own (ns : List Node) (tail : List Piece)
      (reads : (Grammar.opt (.and (Grammar.sees .lParen) .adjacent)
        (Grammar.list [.take, .tree .fieldValidationValue (.call .argument),
          Grammar.argumentEnd])).ReadsBack line
            (p.after (Piece.word .space name).chars) tail rest ns) :
      Grammar.validation.ReadsBack line p (.word .space name :: tail) rest
        [.plain .fieldValidation (Piece.text (.word .space name :: tail))
          (.plain .fieldValidationName name.text [] :: ns)] :=
    .tree (.cons_seq .leaf reads)
  rw [tree, ← text_pieces]
  cases argument with
  | none =>
      exact own [] [] (.opt_nothing (Look.foretold_and (sees_foretold kind (by decide))))
  | some n =>
      refine own _ _ (.yes_of (fun c faces => ?_) ?_)
      · exact faces.holds_and rfl (faces.adjacent (Piece.offset_after _ p) rfl)
      · have closed (p : Position) : Grammar.argumentEnd.ReadsBack line p
            [.symbol .none .rParen] rest [] := .yes rfl .take
        exact .piece_seq .take (.node_seq (argument_readsBack n) (closed _))

theorem Validation.flat_pieces (v : Validation) : ∀ x ∈ v.pieces, x.gap.flat = true := by
  unfold pieces
  cases v.argument with
  | none => simp [Piece.word, Gap.flat]
  | some n =>
      unfold digitsPieces
      split <;> simp [Piece.word, Piece.symbol, Gap.flat, or_imp, forall_and]

/-- The validations of a field end with its line. -/
theorem Validation.readsBack_many (vs : List Validation) (ends : EndsField rest)
    (same : p.line = line) :
    (Grammar.many (.and (Grammar.sees .word) .onLine) Grammar.validation).ReadsBack line p
      (vs.flatMap pieces) rest (vs.map tree) := by
  induction vs generalizing p with
  | nil =>
      refine .stop_of fun c faces => ?_
      rcases ends.kind with word | brace
      · cases rest with
        | nil => cases word
        | cons x rest =>
            have next : (p.after x.gap.chars).line = line + 1 := by
              rw [Gap.line_of_not_flat (ends.broken x rfl), same]
            rw [Look.holds, faces.onLine, next, beq_eq_false_iff_ne.mpr (Nat.succ_ne_self line),
              Bool.and_false]
      · refine faces.holds (Look.foretold_and ?_)
        show some (Piece.kindAt rest 0 == .word) = some false
        rw [brace]
        rfl
  | cons v vs ih =>
      have later : (p.after (Piece.source v.pieces)).line = line := by
        rw [Piece.line_after_source v.flat_pieces, same]
      refine .more_of (fun c faces => ?_) (v.readsBack (kindAt_validations vs ends)) (ih later)
      refine faces.holds_and rfl (faces.onLine.trans ?_)
      rw [beq_iff_eq, ← same]
      exact Gap.line_of_flat rfl p

/-- A type in front of anything but a point and a bracket. -/
theorem Typed.readsBack_type (head : Typed) (point : (Grammar.sees .dot).foretold rest = some false)
    (bracket : (Grammar.sees .lBracket).foretold rest = some false) :
    Grammar.fieldType.ReadsBack line p (.word .space head.type :: arrayPieces head.array) rest
      [.plain .fieldType head.typeText (.plain .id head.type.text [] ::
        if head.array then [.plain .arrayMarker "[]" []] else [])] := by
  have text : Piece.text (.word .space head.type :: arrayPieces head.array) = head.typeText := by
    rw [Piece.text_word_cons, text_arrayPieces, typeText]
  rw [← text]
  refine .tree ?_
  cases head.array with
  | false => exact .cons_seq (.wordName head.type point) (.opt_nothing (Look.foretold_and bracket))
  | true =>
      exact .cons_seq (.wordName head.type rfl) (.yes rfl (.tree (.piece_seq .take .take)))

/-- A field is read back if what stands behind its type is. -/
theorem Typed.readsBack (head : Typed) (depth : Nat) {body : List Piece}
    (ends : EndsField rest)
    (point : (Grammar.sees .dot).foretold (body ++ rest) = some false)
    (bracket : (Grammar.sees .lBracket).foretold (body ++ rest) = some false)
    (reads : ∀ p : Position, (Grammar.choose Grammar.seesNestedBody Grammar.nestedField
      (.many (.and (Grammar.sees .word) .onLine) Grammar.validation)).ReadsBack p.line p body rest
        ns) :
    Grammar.fieldRule.ReadsBack 0 p (head.pieces depth ++ body) rest
      [.plain .field (Piece.text (head.pieces depth ++ body)) (head.trees ++ ns)] := by
  have behind (p : Position) : (Grammar.seq (Grammar.opt (Grammar.sees .comma) .take)
      Grammar.suffixJavadoc).ReadsBack 0 p [] rest [] :=
    .nothing_seq (.opt_nothing (sees_foretold ends.kind (by decide)))
      (.opt_nothing (Look.foretold_and (sees_foretold ends.kind (by decide))))
  exact .tree (.nothing_seq (.javadoc rfl) (.nothing_seq (.options rfl)
    (.cons_seq (.wordName head.name rfl) (.node_seq (head.readsBack_type point bracket)
      (.seq_nothing (.markLine (reads _)) (behind _))))))

/-- A table name in front of anything but a parenthesis. -/
theorem tableName_readsBack (table : Option Identifier)
    (other : (Grammar.sees .lParen).foretold rest = some false) :
    Grammar.tableName.ReadsBack line p (tablePieces table) rest (tableTrees table) := by
  cases table with
  | none => exact .opt_nothing other
  | some t => exact .yes rfl (.piece_seq .take (.cons_seq (.wordName t rfl) .symbol))

/-- A table name and a block of fields. -/
theorem body_readsBack {depth : Nat} (table : Option Identifier)
    (reads : ∀ p : Position, (Grammar.many Grammar.seesItem
      (.recovering .line (.call .field))).ReadsBack line p items
        (.symbol (.line depth) .rBrace :: rest) ns) :
    (Grammar.seq Grammar.tableName Grammar.fields).ReadsBack line p (bodyPieces depth table items)
      rest (tableTrees table ++ ns) :=
  .seq (tableName_readsBack table rfl) (.block reads)

theorem endsField_listPieces (depth closing : Nat) (fs : List Field) :
    EndsField (Field.listPieces depth fs ++ .symbol (.line closing) .rBrace :: rest) := by
  cases fs with
  | nil => exact ⟨.inr rfl, by simp [Field.listPieces, Piece.symbol, Gap.flat]⟩
  | cons f fs =>
      rw [Field.listPieces]
      cases f with
      | plain => exact ⟨.inl rfl, by simp [Field.pieces, Typed.pieces, Piece.word, Gap.flat]⟩
      | nested => exact ⟨.inl rfl, by simp [Field.pieces, Typed.pieces, Piece.word, Gap.flat]⟩

end Parts

mutual

/-- A field is read back in front of the next one. -/
theorem Field.readsBack (depth : Nat) (p : Position) {rest : List Piece} (ends : EndsField rest) :
    (f : Field) → Grammar.fieldRule.ReadsBack 0 p (f.pieces depth) rest [f.tree]
  | .plain head validations => by
      have kind := kindAt_validations validations ends
      have body (p : Position) : (Grammar.choose Grammar.seesNestedBody Grammar.nestedField
          (.many (.and (Grammar.sees .word) .onLine) Grammar.validation)).ReadsBack p.line p
            (validations.flatMap Validation.pieces) rest (validations.map Validation.tree) := by
        refine .no ?_ (Validation.readsBack_many validations ends rfl)
        rw [Grammar.seesNestedBody, Look.foretold, sees_foretold kind (by decide)]
        exact Look.foretold_and (sees_foretold kind (by decide))
      rw [Field.tree, ← Field.text_pieces depth, Field.pieces]
      exact head.readsBack depth ends (sees_foretold kind (by decide))
        (sees_foretold kind (by decide)) body
  | .nested head table fields => by
      have body (p : Position) : (Grammar.choose Grammar.seesNestedBody Grammar.nestedField
          (.many (.and (Grammar.sees .word) .onLine) Grammar.validation)).ReadsBack p.line p
            (bodyPieces depth table (Field.listPieces (depth + 1) fields)) rest
            [.plain .nestedField (bodyText table (Field.listText fields))
              (tableTrees table ++ Field.trees fields)] := by
        have text : Piece.text (bodyPieces depth table (Field.listPieces (depth + 1) fields)) =
            bodyText table (Field.listText fields) := by
          rw [text_bodyPieces, Field.text_listPieces]
        rw [← text]
        have looks : Grammar.seesNestedBody.foretold
            (bodyPieces depth table (Field.listPieces (depth + 1) fields) ++ rest) = some true := by
          cases table <;> rfl
        exact .yes looks (.tree (body_readsBack table fun p =>
          Field.readsBack_list (depth + 1) depth p fields))
      rw [Field.tree, ← Field.text_pieces depth, Field.pieces]
      exact head.readsBack depth ends (by cases table <;> rfl) (by cases table <;> rfl) body

/-- Some fields are read back in front of the end of their block. -/
theorem Field.readsBack_list {line : Nat} {rest : List Piece} (depth closing : Nat) (p : Position) :
    (fs : List Field) → (Grammar.many Grammar.seesItem (.recovering .line (.call .field))).ReadsBack line p
      (Field.listPieces depth fs) (.symbol (.line closing) .rBrace :: rest) (Field.trees fs)
  | [] => .stop rfl
  | f :: fs => by
      have looks : Grammar.seesItem.foretold (f.pieces depth ++ (Field.listPieces depth fs ++
          .symbol (.line closing) .rBrace :: rest)) = some true := by
        cases f <;> rfl
      have called : (Grammar.call .field).ReadsBack line p (f.pieces depth)
          (Field.listPieces depth fs ++ .symbol (.line closing) .rBrace :: rest) [f.tree] :=
        .call (Field.readsBack depth p (endsField_listPieces depth closing fs) f)
      exact .more looks (.recovering called) (Field.readsBack_list depth closing _ fs)

end

section Sources

variable {line : Nat} {p : Position} {rest : List Piece} {lead : Gap}

theorem Entity.readsBack (e : Entity) :
    Grammar.Entity.declaration.ReadsBack line p (e.pieces lead) rest [e.tree] := by
  have body : Grammar.Entity.entity.ReadsBack line p (e.pieces lead) rest
      (.plain .entityName e.name.text [] :: (tableTrees e.table ++ Field.trees e.fields)) := by
    have word : (Grammar.sees .dot).foretold
        (bodyPieces 0 e.table (Field.listPieces 1 e.fields) ++ rest) = some false := by
      cases e.table <;> rfl
    exact .piece_seq .take (.cons_seq (.wordName e.name word)
      (body_readsBack e.table fun p => Field.readsBack_list 1 0 p e.fields))
  rw [tree, ← e.text_pieces lead]
  exact .alternatives (.nothing_seq (.javadoc rfl) (.options rfl)) rfl body

theorem Entity.readsBack_list (es : List Entity) :
    (Grammar.many Grammar.seesMore (.recovering (.construct Grammar.Entity.keywords)
      Grammar.Entity.declaration)).ReadsBack line p (listPieces lead es) [] (es.map tree) := by
  induction es generalizing lead p with
  | nil => exact .stop rfl
  | cons e es ih => exact .more rfl (.recovering e.readsBack) ih

/-- Entities are read back as a whole source. -/
theorem readsBack_entities (es : List Entity) :
    Grammar.Entity.source.ReadsBack line p (Entity.listPieces lead es) [] (es.map Entity.tree) := by
  have noJavadoc : (Grammar.globalJavadoc Grammar.Entity.keywords).ReadsBack line p []
      (Entity.listPieces lead es ++ []) [] := by
    cases es <;> exact .opt_nothing rfl
  have noConstant : Grammar.Entity.seesConstant.foretold (Entity.listPieces lead es ++ []) =
      some false := by
    cases es <;> rfl
  exact .nothing_seq noJavadoc (.nothing_seq (.stop noConstant) (Entity.readsBack_list es))

end Sources

/-- **Parsing undoes printing.** Whatever words are the names and however deep the fields are
nested, the printed entities are parsed without faults, under every limit, and the tree is that of
the entities. -/
theorem parse_printEntities (entities : List Entity) (limit : Nat) :
    ∃ parse, Parse.ofSource? .entity limit (printEntities entities) = .ok parse ∧
      parse.faults = [] ∧ parse.tree.bare = entitiesTree entities := by
  rw [entitiesTree, ← Entity.text_listPieces .none]
  exact Parse.ofSource?_print .entity (Entity.apart_listPieces entities)
    (readsBack_entities entities) limit

/-- Keywords as names, a table, an array, validations and a nested body. -/
example : printEntities [
    ⟨⟨"entity", by decide⟩, some ⟨"if", by decide⟩, [
      .plain ⟨⟨"a", by decide⟩, ⟨"String", by decide⟩, true⟩
        [⟨⟨"required", by decide⟩, none⟩, ⟨⟨"min", by decide⟩, some ⟨"3", by decide⟩⟩],
      .nested ⟨⟨"b", by decide⟩, ⟨"B", by decide⟩, false⟩ none []]⟩,
    ⟨⟨"E", by decide⟩, none, []⟩] =
    String.join ["entity entity (if) \x7b\n",
      "  a String[] required min(3)\n", "  b B \x7b\n", "  \x7d\n",
      "\x7d\n", "entity E \x7b\n", "\x7d\n"] := by
  decide +kernel

end EntityFlow.Outline
