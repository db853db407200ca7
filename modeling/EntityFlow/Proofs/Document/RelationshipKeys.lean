import EntityFlow.Proofs.Document.Declarations
import EntityFlow.Proofs.Grammar.Inversion

/-!
# The keys of relationships

Relationships of a kind are kept under the texts of their two ends, joined by an underscore. Such a
key can be read in several ways: the name of an entity may have underscores in it, and a required
field reads like a longer name. These are the only ways in which two relationships get one key
(`Relationship.key_eq_iff`), and then the later one takes the place of the earlier one in the
document (`Model.ofEntityTree_relationships`).
-/

namespace EntityFlow

/-! ## Texts in braces -/

section Splitting

variable {a a' b b' u v : List Char} {m m' : Option (List Char)}

/-- A text splits in one way at the first place of a character. -/
theorem append_cons_inj_of_not_mem {c : Char} (free : c ∉ a) (free' : c ∉ a')
    (same : a ++ c :: u = a' ++ c :: v) : a = a' ∧ u = v := by
  induction a generalizing a' with
  | nil =>
      cases a' with
      | nil => exact ⟨rfl, (List.cons.inj same).2⟩
      | cons d rest =>
          rw [(List.cons.inj same).1] at free'
          exact absurd List.mem_cons_self free'
  | cons d rest ih =>
      cases a' with
      | nil =>
          rw [← (List.cons.inj same).1] at free
          exact absurd List.mem_cons_self free
      | cons d' rest' =>
          obtain ⟨rfl, tails⟩ := List.cons.inj same
          obtain ⟨rfl, rests⟩ := ih (List.not_mem_of_not_mem_cons free)
            (List.not_mem_of_not_mem_cons free') tails
          exact ⟨rfl, rests⟩

/-- A text with a text in braces behind it, if there is one, in front of more. -/
def withBraces (m : Option (List Char)) (more : List Char) : List Char :=
  match m with
  | none => more
  | some f => '\x7b' :: (f ++ '\x7d' :: more)

/-- That a text in braces, if there is one, ends with the first brace that closes. -/
def Unclosed (m : Option (List Char)) : Prop := ∀ f, m = some f → '\x7d' ∉ f

theorem eq_of_withBraces (free : '\x7b' ∉ a) (free' : '\x7b' ∉ a') (inner : Unclosed m)
    (inner' : Unclosed m') (same : a ++ withBraces m [] = a' ++ withBraces m' []) :
    a = a' ∧ m = m' := by
  cases m with
  | none =>
      cases m' with
      | none => exact ⟨by simpa [withBraces] using same, rfl⟩
      | some f' =>
          refine absurd (?_ : '\x7b' ∈ a) free
          rw [withBraces, List.append_nil] at same
          rw [same, withBraces]
          simp
  | some f =>
      cases m' with
      | none =>
          refine absurd (?_ : '\x7b' ∈ a') free'
          rw [withBraces, withBraces, List.append_nil] at same
          rw [← same]
          simp
      | some f' =>
          obtain ⟨rfl, behind⟩ := append_cons_inj_of_not_mem free free' same
          obtain ⟨rfl, _⟩ := append_cons_inj_of_not_mem (inner f rfl) (inner' f' rfl) behind
          exact ⟨rfl, rfl⟩

/-- What follows an underscore behind closed braces is not what follows one without. -/
theorem withBraces_ne {f : List Char} (free : '\x7b' ∉ a) (free' : '\x7b' ∉ a')
    (freeTarget' : '\x7b' ∉ b') (inner : Unclosed (some f)) (inner' : Unclosed m') :
    a ++ withBraces (some f) ('_' :: u) ≠ a' ++ '_' :: (b' ++ withBraces m' []) := by
  intro same
  have whole : '\x7b' ∉ a' ++ '_' :: b' := by simp [free', freeTarget']
  rw [← List.cons_append, ← List.append_assoc] at same
  cases m' with
  | none =>
      refine absurd (?_ : '\x7b' ∈ a' ++ '_' :: b') whole
      rw [withBraces, withBraces, List.append_nil] at same
      rw [← same]
      simp
  | some f' =>
      obtain ⟨_, behind⟩ := append_cons_inj_of_not_mem free whole same
      obtain ⟨_, more⟩ := append_cons_inj_of_not_mem (inner f rfl) (inner' f' rfl) behind
      cases more

/-- Two texts around an underscore are the same as two others only if they are these, or if a part
of one text has moved to the other side. -/
theorem append_underscore_eq (same : a ++ '_' :: b = a' ++ '_' :: b') :
    (a = a' ∧ b = b') ∨ (∃ part, a' = a ++ '_' :: part ∧ b = part ++ '_' :: b') ∨
      ∃ part, a = a' ++ '_' :: part ∧ b' = part ++ '_' :: b := by
  rcases List.append_eq_append_iff.mp same with ⟨between, equal, rest⟩ | ⟨between, equal, rest⟩
  · cases between with
    | nil => exact Or.inl ⟨by simpa using equal.symm, (List.cons.inj rest).2⟩
    | cons c part =>
        obtain ⟨rfl, moved⟩ := List.cons.inj rest
        exact Or.inr (Or.inl ⟨part, equal, moved⟩)
  · cases between with
    | nil => exact Or.inl ⟨by simpa using equal, (List.cons.inj rest).2.symm⟩
    | cons c part =>
        obtain ⟨rfl, moved⟩ := List.cons.inj rest
        exact Or.inr (Or.inr ⟨part, equal, moved⟩)

/-- Two names, each with a text in braces behind it if there is one, around an underscore. -/
theorem withBraces_underscore {n n' : Option (List Char)} (freeA : '\x7b' ∉ a)
    (freeA' : '\x7b' ∉ a') (freeB : '\x7b' ∉ b) (freeB' : '\x7b' ∉ b') (innerM : Unclosed m)
    (innerM' : Unclosed m') (innerN : Unclosed n) (innerN' : Unclosed n')
    (same : a ++ withBraces m ('_' :: (b ++ withBraces n [])) =
      a' ++ withBraces m' ('_' :: (b' ++ withBraces n' []))) :
    n = n' ∧ ((a = a' ∧ m = m' ∧ b = b') ∨ (m = none ∧ m' = none ∧
      ((∃ part, a' = a ++ '_' :: part ∧ b = part ++ '_' :: b') ∨
        ∃ part, a = a' ++ '_' :: part ∧ b' = part ++ '_' :: b))) := by
  cases m with
  | none =>
      cases m' with
      | none =>
          -- the two names and the underscore are one text in front of the last braces
          rw [withBraces, withBraces, ← List.cons_append, ← List.append_assoc, ← List.cons_append,
            ← List.append_assoc] at same
          obtain ⟨names, rfl⟩ := eq_of_withBraces (by simp [freeA, freeB])
            (by simp [freeA', freeB']) innerN innerN' same
          refine ⟨rfl, ?_⟩
          rcases append_underscore_eq names with ⟨rfl, rfl⟩ | moved
          · exact Or.inl ⟨rfl, rfl, rfl⟩
          · exact Or.inr ⟨rfl, rfl, moved⟩
      | some f' => exact absurd same.symm (withBraces_ne freeA' freeA freeB innerM' innerN)
  | some f =>
      cases m' with
      | none => exact absurd same (withBraces_ne freeA freeA' freeB' innerM innerN')
      | some f' =>
          obtain ⟨rfl, behind⟩ := append_cons_inj_of_not_mem freeA freeA' same
          obtain ⟨rfl, more⟩ := append_cons_inj_of_not_mem (innerM f rfl) (innerM' f' rfl) behind
          obtain ⟨rfl, rfl⟩ := eq_of_withBraces freeB freeB' innerN innerN' (List.cons.inj more).2
          exact ⟨rfl, Or.inl ⟨rfl, rfl, rfl⟩⟩

end Splitting

/-! ## The text of an end -/

namespace RelationshipEnd

/-- A field with its mark, as the text of a definition shows it. -/
def marked (field : Option String) (required : Bool) : Option String :=
  field.map fun f => if required then f ++ "required" else f

/-- The field of an end as the text of the definition shows it. -/
def shownField (e : RelationshipEnd) : Option String := marked e.field e.required

/-- What a definition shows behind the name of its entity. -/
def inBraces : Option String → String
  | none => ""
  | some f => "\x7b" ++ f ++ "\x7d"

/-- That two ends show the same field: they have the same one with the same mark, or the mark of one
stands where the name of the other goes on. -/
def ShowsSameField (e e' : RelationshipEnd) : Prop :=
  (e.field = e'.field ∧ e.required = e'.required) ∨
    ∃ f, (e.field = some f ∧ e.required ∧ e'.field = some (f ++ "required") ∧ ¬ e'.required) ∨
      (e'.field = some f ∧ e'.required ∧ e.field = some (f ++ "required") ∧ ¬ e.required)

/-- An end as it is read from a source: its definition is made of an entity and, in braces, a field
that may be marked, and no name holds a brace. -/
structure Spelled (e : RelationshipEnd) : Prop where
  definition : e.definition = e.entity ++ inBraces e.shownField
  unmarked : e.field = none → e.required = false
  entity : '\x7b' ∉ e.entity.toList
  field : ∀ f, e.shownField = some f → '\x7d' ∉ f.toList

theorem shownField_eq_iff {e e' : RelationshipEnd} (spelled : e.Spelled) (spelled' : e'.Spelled) :
    e.shownField = e'.shownField ↔ e.ShowsSameField e' := by
  have marks := spelled.unmarked
  have marks' := spelled'.unmarked
  unfold shownField marked ShowsSameField
  cases field : e.field with
  | none =>
      cases field' : e'.field with
      | none => simp [marks field, marks' field']
      | some f' => simp
  | some f =>
      cases field' : e'.field with
      | none => simp
      | some f' =>
          cases e.required <;> cases e'.required <;> simp [eq_comm]

/-- The characters of a definition that is followed by more. -/
theorem Spelled.chars {e : RelationshipEnd} (spelled : e.Spelled) (more : List Char) :
    e.definition.toList ++ more =
      e.entity.toList ++ withBraces (e.shownField.map String.toList) more := by
  rw [spelled.definition]
  cases e.shownField with
  | none => simp [withBraces, inBraces]
  | some f => simp [withBraces, inBraces, String.toList_append]

theorem Spelled.chars_nil {e : RelationshipEnd} (spelled : e.Spelled) :
    e.definition.toList = e.entity.toList ++ withBraces (e.shownField.map String.toList) [] := by
  rw [← spelled.chars, List.append_nil]

theorem Spelled.unclosed {e : RelationshipEnd} (spelled : e.Spelled) :
    Unclosed (e.shownField.map String.toList) := by
  intro f known
  obtain ⟨text, shown, rfl⟩ := Option.map_eq_some_iff.mp known
  exact spelled.field text shown

theorem shownField_inj {m m' : Option String} (same : m.map String.toList = m'.map String.toList) :
    m = m' :=
  Option.map_injective (fun _ _ => String.toList_inj.mp) same

end RelationshipEnd

namespace Relationship

/-- That two relationships have ends that look alike. -/
def SameEnds (r r' : Relationship) : Prop :=
  (r.source.entity = r'.source.entity ∧ r.source.ShowsSameField r'.source) ∧
    r.target.entity = r'.target.entity ∧ r.target.ShowsSameField r'.target

/-- That a part of the name of the entity that the second relationship comes from is in the first
one a part of the name of the entity that it goes to, and no field stands between the two. -/
def MovesUnderscore (r r' : Relationship) : Prop :=
  r.source.field = none ∧ r'.source.field = none ∧ r.target.ShowsSameField r'.target ∧
    ∃ part, r'.source.entity = r.source.entity ++ "_" ++ part ∧
      r.target.entity = part ++ "_" ++ r'.target.entity

/-- That both ends of a relationship are as they are read from a source. -/
structure Spelled (r : Relationship) : Prop where
  source : r.source.Spelled
  target : r.target.Spelled

theorem key_eq_iff_chars {r r' : Relationship} (kinds : r.kind = r'.kind) :
    r.key = r'.key ↔
      r.source.definition.toList ++ '_' :: r.target.definition.toList =
        r'.source.definition.toList ++ '_' :: r'.target.definition.toList := by
  unfold key
  rw [← String.toList_inj, kinds]
  simp [String.toList_append]

theorem key_eq_of_sameEnds {r r' : Relationship} (kinds : r.kind = r'.kind) (spelled : r.Spelled)
    (spelled' : r'.Spelled) (same : r.SameEnds r') : r.key = r'.key := by
  obtain ⟨⟨source, sourceField⟩, target, targetField⟩ := same
  rw [← RelationshipEnd.shownField_eq_iff spelled.source spelled'.source] at sourceField
  rw [← RelationshipEnd.shownField_eq_iff spelled.target spelled'.target] at targetField
  unfold key
  rw [kinds, spelled.source.definition, spelled.target.definition, spelled'.source.definition,
    spelled'.target.definition, source, sourceField, target, targetField]

theorem key_eq_of_movesUnderscore {r r' : Relationship} (kinds : r.kind = r'.kind)
    (spelled : r.Spelled) (spelled' : r'.Spelled) (moves : r.MovesUnderscore r') :
    r.key = r'.key := by
  obtain ⟨noField, noField', targetField, part, source, target⟩ := moves
  rw [← RelationshipEnd.shownField_eq_iff spelled.target spelled'.target] at targetField
  have shown : r.source.shownField = none := by
    rw [RelationshipEnd.shownField, noField]
    rfl
  have shown' : r'.source.shownField = none := by
    rw [RelationshipEnd.shownField, noField']
    rfl
  unfold key
  rw [kinds, spelled.source.definition, spelled.target.definition, spelled'.source.definition,
    spelled'.target.definition, shown, shown', targetField, source, target]
  simp [RelationshipEnd.inBraces, String.append_assoc]

theorem append_part {s t : String} {part : List Char} (same : t.toList = s.toList ++ '_' :: part) :
    t = s ++ "_" ++ String.ofList part := by
  rw [← String.toList_inj, same]
  simp [String.toList_append]

theorem part_append {s t : String} {part : List Char} (same : t.toList = part ++ '_' :: s.toList) :
    t = String.ofList part ++ "_" ++ s := by
  rw [← String.toList_inj, same]
  simp [String.toList_append]

/-- **Two relationships of a kind have one key if and only if their ends look alike**, or differ
only in the underscore at which the names of their entities are joined. -/
theorem key_eq_iff {r r' : Relationship} (kinds : r.kind = r'.kind) (spelled : r.Spelled)
    (spelled' : r'.Spelled) :
    r.key = r'.key ↔ r.SameEnds r' ∨ r.MovesUnderscore r' ∨ r'.MovesUnderscore r := by
  constructor
  · intro keys
    have chars := (key_eq_iff_chars kinds).mp keys
    rw [spelled.source.chars, spelled.target.chars_nil, spelled'.source.chars,
      spelled'.target.chars_nil] at chars
    obtain ⟨targetFields, cases⟩ := withBraces_underscore spelled.source.entity
      spelled'.source.entity spelled.target.entity spelled'.target.entity spelled.source.unclosed
      spelled'.source.unclosed spelled.target.unclosed spelled'.target.unclosed chars
    have targetField := (RelationshipEnd.shownField_eq_iff spelled.target spelled'.target).mp
      (RelationshipEnd.shownField_inj targetFields)
    have targetField' := (RelationshipEnd.shownField_eq_iff spelled'.target spelled.target).mp
      (RelationshipEnd.shownField_inj targetFields.symm)
    rcases cases with ⟨sources, sourceFields, targets⟩ | ⟨none, none', moved⟩
    · have sourceField := (RelationshipEnd.shownField_eq_iff spelled.source spelled'.source).mp
        (RelationshipEnd.shownField_inj sourceFields)
      exact Or.inl ⟨⟨String.toList_inj.mp sources, sourceField⟩, String.toList_inj.mp targets,
        targetField⟩
    · have noField := Option.map_eq_none_iff.mp (Option.map_eq_none_iff.mp none)
      have noField' := Option.map_eq_none_iff.mp (Option.map_eq_none_iff.mp none')
      rcases moved with ⟨part, source, target⟩ | ⟨part, source, target⟩
      · exact Or.inr (Or.inl ⟨noField, noField', targetField, String.ofList part,
          append_part source, part_append target⟩)
      · exact Or.inr (Or.inr ⟨noField', noField, targetField', String.ofList part,
          append_part source, part_append target⟩)
  · rintro (same | moves | moves)
    · exact key_eq_of_sameEnds kinds spelled spelled' same
    · exact key_eq_of_movesUnderscore kinds spelled spelled' moves
    · exact (key_eq_of_movesUnderscore kinds.symm spelled' spelled moves).symm

end Relationship

/-! ## Ends in sources -/

namespace Grammar.Entity

/-- What the braces of a definition hold. -/
def relationshipField : Grammar :=
  list [take, name .relationshipFieldName, opt (seesWord "required") (leaf .relationshipRequired),
    symbol .rBrace]

theorem shape_relationshipDefinition {g : Grammar}
    (shape : (Node.Kind.relationshipDefinition, g) ∈ Language.entity.shapes) :
    g = .seq .done
      (.seq (name .relationshipEntityName) (opt (sees .lBrace) relationshipField)) := by
  have only : (Language.entity.shapes.all fun shape => shape.1 != .relationshipDefinition ||
      shape.2 == .seq .done (.seq (name .relationshipEntityName)
        (opt (sees .lBrace) relationshipField))) = true := by
    decide +kernel
  simpa using List.all_eq_true.mp only _ shape

end Grammar.Entity

namespace Accepts

open Grammar.Entity

variable {tokens : List Token} {line : Nat} {c d : Cursor} {ns : List Node}

/-- The braces of a definition hold a field that may be marked. -/
theorem of_relationshipField (accepts : Accepts relationshipField line c ns d)
    (ended : Token.Ended c.ahead) (opening : c.current.kind = .lBrace)
    (spelled : ∀ t ∈ c.ahead, t.Spelled) :
    ∃ f : Node, f.kind = .relationshipFieldName ∧ Unbraced f.text ∧
      ∃ segment, c.Moves segment d ∧
        ((ns = [f] ∧
            Node.shown .relationshipDefinition segment = "\x7b" ++ f.text ++ "\x7d") ∨
          ∃ m : Node, m.kind = .relationshipRequired ∧ ns = [f, m] ∧
            Node.shown .relationshipDefinition segment =
              "\x7b" ++ (f.text ++ "required") ++ "\x7d") := by
  cases accepts with
  | seq first rest =>
  obtain ⟨rfl, toName⟩ := first.of_take ended (by simp [Cursor.Proper, opening])
  have endedName := (toName.ended ended).2
  cases rest with
  | @seq _ _ _ _ _ atMark _ _ name rest =>
  have brace : c.current.text = "\x7b" := by
    have text := (spelled _ (toName.mem_ahead_of_mem List.mem_cons_self)).symbol
    rw [opening] at text
    exact text (by decide)
  have spelledName := toName.spelled spelled
  obtain ⟨f, rfl, kind, plain, one, toMark, text, _⟩ := name.of_name_unbraced endedName spelledName
  have endedMark := (toMark.ended endedName).2
  have spelledMark := toMark.spelled spelledName
  have shownName : Node.shown .relationshipDefinition one = f.text := by
    rw [text]
    exact Node.shown_congr rfl rfl one
  cases rest with
  | seq mark close =>
  refine ⟨f, kind, plain, ?_⟩
  rcases mark.of_opt with ⟨sees, leaf⟩ | ⟨_, rfl, rfl⟩
  · have required : atMark.current.kind = .word ∧ atMark.current.text = "required" := by
      simpa [Look.holds, Grammar.seesWord] using sees
    obtain ⟨m, rfl, isMark, _, toClose⟩ := leaf.of_leaf endedMark
      (by simp [Cursor.Proper, required.1])
    obtain ⟨rfl, toEnd, shownClose⟩ := close.of_symbol_shown (toClose.ended endedMark).2
      (toClose.spelled spelledMark) (by decide)
    refine ⟨_, toName.trans (toMark.trans (toClose.trans toEnd)), Or.inr ⟨m, isMark, rfl, ?_⟩⟩
    rw [Node.shown_append, Node.shown_append, Node.shown_append, shownName, shownClose,
      Node.shown_singleton _ (by rw [opening]; decide),
      Node.shown_singleton _ (by rw [required.1]; decide), brace, required.2]
    simp [String.append_assoc, Token.Kind.symbol]
  · obtain ⟨rfl, toEnd, shownClose⟩ := close.of_symbol_shown endedMark spelledMark (by decide)
    refine ⟨_, toName.trans (toMark.trans toEnd), Or.inl ⟨rfl, ?_⟩⟩
    rw [Node.shown_append, Node.shown_append, shownName, shownClose,
      Node.shown_singleton _ (by rw [opening]; decide), brace]
    simp [String.append_assoc, Token.Kind.symbol]

end Accepts

/-- What a definition in a source is made of: an entity, and a field in braces that may be
marked. -/
theorem Node.Accepted.relationshipDefinition {tokens : List Token} {n : Node}
    (accepted : n.Accepted tokens Language.entity.shapes) (ordered : Token.InOrder 0 tokens)
    (spelled : ∀ t ∈ tokens, t.Spelled) (definition : n.kind = .relationshipDefinition) :
    ∃ e : Node, e.kind = .relationshipEntityName ∧ Unbraced e.text ∧
      ((n.children = [e] ∧ n.text = e.text) ∨
        ∃ f : Node, f.kind = .relationshipFieldName ∧ Unbraced f.text ∧
          ((n.children = [e, f] ∧ n.text = e.text ++ ("\x7b" ++ f.text ++ "\x7d")) ∨
            ∃ m : Node, m.kind = .relationshipRequired ∧ n.children = [e, f, m] ∧
              n.text = e.text ++ ("\x7b" ++ (f.text ++ "required") ++ "\x7d"))) := by
  obtain ⟨g, shape, line, first, last, accepts, on, whole⟩ := accepted
  rw [definition] at shape whole
  rw [Grammar.Entity.shape_relationshipDefinition shape] at accepts
  have ended := on.ended ordered
  obtain ⟨front, toFirst⟩ := on
  have spelledFirst := toFirst.spelled spelled
  generalize n.children = parts at accepts whole ⊢
  have text {segment : List Token} (moves : first.Moves segment last) :
      n.text = Node.shown .relationshipDefinition segment := by
    rw [whole]
    exact Node.ofTokens_shown moves
  cases accepts with
  | seq nothing body =>
  cases nothing
  cases body with
  | seq name rest =>
  obtain ⟨e, rfl, kind, plain, one, toBrace, shownName, _⟩ :=
    name.of_name_unbraced ended spelledFirst
  have shownEntity : Node.shown .relationshipDefinition one = e.text := by
    rw [shownName]
    exact Node.shown_congr rfl rfl one
  refine ⟨e, kind, plain, ?_⟩
  rcases rest.of_opt with ⟨sees, field⟩ | ⟨_, rfl, rfl⟩
  · obtain ⟨f, isField, plainField, two, toLast, shown⟩ :=
      field.of_relationshipField (toBrace.ended ended).2
        (by simpa [Look.holds, Grammar.sees] using sees) (toBrace.spelled spelledFirst)
    refine Or.inr ⟨f, isField, plainField, ?_⟩
    have both := text (toBrace.trans toLast)
    rw [Node.shown_append, shownEntity] at both
    rcases shown with ⟨rfl, shownField⟩ | ⟨m, isMark, rfl, shownField⟩
    · exact Or.inl ⟨rfl, by rw [both, shownField]⟩
    · exact Or.inr ⟨m, isMark, rfl, by rw [both, shownField]⟩
  · exact Or.inl ⟨rfl, by rw [text toBrace, shownEntity]⟩

theorem RelationshipEnd.spelled_of_names {e : RelationshipEnd} (entity : Unbraced e.entity)
    (field : ∀ f, e.field = some f → Unbraced f) (unmarked : e.field = none → e.required = false)
    (definition : e.definition = e.entity ++ inBraces (marked e.field e.required)) :
    e.Spelled := by
  refine ⟨definition, unmarked, entity.1, fun shown known => ?_⟩
  obtain ⟨f, isField, rfl⟩ := Option.map_eq_some_iff.mp known
  have plain := field f isField
  split
  · exact (plain.append ⟨by decide, by decide⟩).2
  · exact plain.2

/-- An end that is read from a source is spelled so. -/
theorem RelationshipEnd.spelled_ofNode {tokens : List Token} {n definition : Node}
    (found : n.child .relationshipDefinition = some definition)
    (accepted : definition.Accepted tokens Language.entity.shapes)
    (ordered : Token.InOrder 0 tokens) (spelled : ∀ t ∈ tokens, t.Spelled) :
    (RelationshipEnd.ofNode n).Spelled := by
  have kind : definition.kind = .relationshipDefinition := by
    have holds := List.find?_some found
    exact beq_iff_eq.mp holds
  obtain ⟨e, isEntity, plain, cases⟩ := accepted.relationshipDefinition ordered spelled kind
  have ends (field : Option String) (required : Bool) (known : ∀ f, field = some f → Unbraced f)
      (unmarked : field = none → required = false)
      (entity : definition.childText .relationshipEntityName = some e.text)
      (fields : definition.childText .relationshipFieldName = field)
      (marks : definition.hasChild .relationshipRequired = required)
      (text : definition.text = e.text ++ inBraces (marked field required)) :
      (RelationshipEnd.ofNode n).Spelled := by
    subst fields marks
    unfold RelationshipEnd.ofNode
    rw [found]
    refine RelationshipEnd.spelled_of_names ?_ known unmarked ?_
    · show Unbraced ((definition.childText .relationshipEntityName).getD "")
      rw [entity]
      exact plain
    · show definition.text = (definition.childText .relationshipEntityName).getD "" ++ _
      rw [entity]
      exact text
  rcases cases with ⟨parts, text⟩ | ⟨f, isField, plainField, cases⟩
  · refine ends none false (fun _ absent => absurd absent.symm (Option.some_ne_none _))
      (fun _ => rfl) ?_ ?_ ?_ ?_ <;>
      simp [Node.childText, Node.child, Node.hasChild, parts, isEntity, text, marked, inBraces]
  · rcases cases with ⟨parts, text⟩ | ⟨m, isMark, parts, text⟩
    · refine ends (some f.text) false ?_ (absurd · (Option.some_ne_none _)) ?_ ?_ ?_ ?_ <;>
        simp [Node.childText, Node.child, Node.hasChild, parts, isEntity, isField, text, plainField,
          marked, inBraces]
    · refine ends (some f.text) true ?_ (absurd · (Option.some_ne_none _)) ?_ ?_ ?_ ?_ <;>
        simp [Node.childText, Node.child, Node.hasChild, parts, isEntity, isField, isMark, text,
          plainField, marked, inBraces]

/-! ## Relationships in sources -/

namespace Relationship

variable {tokens : List Token} {limit : Nat} {tree : Node} {first last : Reading}

/-- The relationships of a tree are those of its relationship nodes. -/
theorem exists_of_mem_declaredIn {r : Relationship} (member : r ∈ declaredIn tree.children) :
    ∃ n ∈ tree.subtrees, ∃ source target, n.child .relationshipFrom = some source ∧
      n.child .relationshipTo = some target ∧
      r.source = .ofNode source ∧ r.target = .ofNode target := by
  obtain ⟨block, isBlock, inside⟩ := List.mem_flatMap.mp member
  obtain ⟨n, isRelationship, declares⟩ := List.mem_filterMap.mp inside
  have inBlock := (List.mem_filter.mp isRelationship).1
  have inTree := (List.mem_filter.mp isBlock).1
  have below : n ∈ tree.subtrees := Node.mem_subtrees_of_below
    (Node.mem_subtreesOf.mpr ⟨block, inTree,
      Node.mem_subtrees_of_below (Node.mem_subtreesOf_self inBlock)⟩)
  unfold EntityBuilder.relationship? at declares
  split at declares
  · rename_i source target isSource isTarget
    cases declares
    exact ⟨n, below, source, target, isSource, isTarget, rfl, rfl⟩
  · cases declares

/-- A relationship that is read from a source without faults is spelled so. -/
theorem spelled_of_mem_declaredIn
    (shaped : ∀ n ∈ tree.subtrees, n.Shaped limit Language.entity.shapes first last)
    (accepted : ∀ n ∈ tree.subtrees, n.Accepted tokens Language.entity.shapes)
    (ordered : Token.InOrder 0 tokens) (spelled : ∀ t ∈ tokens, t.Spelled) {r : Relationship}
    (member : r ∈ declaredIn tree.children) : r.Spelled := by
  obtain ⟨n, below, source, target, isSource, isTarget, equal, equal'⟩ :=
    exists_of_mem_declaredIn member
  have part {k : Node.Kind} {e : Node} (ends : k = .relationshipFrom ∨ k = .relationshipTo)
      (found : n.child k = some e) : (RelationshipEnd.ofNode e).Spelled := by
    have kind : e.kind = k := by
      have holds := List.find?_some found
      exact beq_iff_eq.mp holds
    have inside : e ∈ tree.subtrees := Node.subtrees_subset _ below
      (Node.mem_subtrees_of_below (Node.mem_subtreesOf_self (List.mem_of_find?_eq_some found)))
    have needs : Node.Kind.relationshipDefinition ∈ e.kind.needs := by
      rw [kind]
      rcases ends with rfl | rfl <;> decide
    obtain ⟨definition, isPart⟩ := Option.isSome_iff_exists.mp ((shaped e inside).hasChild needs)
    refine RelationshipEnd.spelled_ofNode isPart (accepted definition ?_) ordered spelled
    exact Node.subtrees_subset _ inside
      (Node.mem_subtrees_of_below (Node.mem_subtreesOf_self (List.mem_of_find?_eq_some isPart)))
  constructor
  · rw [equal]
    exact part (Or.inl rfl) isSource
  · rw [equal']
    exact part (Or.inr rfl) isTarget

/-- A relationship in a source has both ends. -/
theorem exists_of_shaped {n : Node} (shaped : n.Shaped limit Language.entity.shapes first last)
    (isRelationship : n.kind = .relationship) (kind : String) :
    ∃ r, EntityBuilder.relationship? kind n = some r ∧ r.kind = kind := by
  have part {k : Node.Kind} (needed : k ∈ Node.Kind.relationship.needs) :
      ∃ e, n.child k = some e := by
    rw [← isRelationship] at needed
    exact Option.isSome_iff_exists.mp (shaped.hasChild needed)
  obtain ⟨source, isSource⟩ := part (k := .relationshipFrom) (by decide)
  obtain ⟨target, isTarget⟩ := part (k := .relationshipTo) (by decide)
  refine ⟨⟨kind, .ofNode source, .ofNode target⟩, ?_, rfl⟩
  rw [EntityBuilder.relationship?, isSource, isTarget]

/-- The relationships of a kind that some nodes declare, in order. -/
def declaredUnder (kind : String) (ns : List Node) : List Relationship :=
  (declaredIn ns).filter (·.kind == kind)

end Relationship

/-- **A relationship is lost to another one of its kind only if their ends look alike** or differ in
the underscore at which they are joined: every relationship is declared, each kind has one record
for each key, and that is when two keys are the same. -/
theorem Model.ofEntityTree_relationships {limit : Nat} {source : String} {p : Parse}
    (parsed : Parse.ofSource? .entity limit source = .ok p) (faultless : p.faults = []) :
    (Model.ofEntityTree p.tree).document.get? "relationships" = some (.mapping
      ((EntityBuilder.ofTree p.tree).document.relationships.mapValues fun partition =>
        .mapping (partition.mapValues Relationship.toValue))) ∧
    (∀ block ∈ p.tree.childrenOf .relationships, ∀ n ∈ block.childrenOf .relationship,
      let kind := (block.childText .relationshipType).getD ""
      ∃ r ∈ Relationship.declaredUnder kind p.tree.children,
        EntityBuilder.relationship? kind n = some r) ∧
    ∀ kind, let declared := Relationship.declaredUnder kind p.tree.children
      (EntityBuilder.ofTree p.tree).document.relationshipsOf kind =
        OrderedMap.ofEntries (declared.map fun r => (r.key, r)) ∧
      ((EntityBuilder.ofTree p.tree).document.relationshipsOf kind).length =
        (declared.map Relationship.key).dedup.length ∧
      ∀ r ∈ declared, ∀ r' ∈ declared,
        (r.key = r'.key ↔ r.SameEnds r' ∨ r.MovesUnderscore r' ∨ r'.MovesUnderscore r) := by
  obtain ⟨tokens, lexed, rfl⟩ := Parse.exists_tokens parsed
  have ordered := Token.lex_inOrder lexed
  obtain ⟨last, _, shaped⟩ := Parse.ofTokens_shaped .entity limit ordered.ended
  have accepted := Parse.ofTokens_accepted .entity limit ordered.ended faultless
  refine ⟨EntityDocument.get?_relationships _, fun block isBlock n isRelationship => ?_,
    fun kind => ⟨EntityBuilder.relationshipsOf_ofTree _ kind, ?_, fun r member r' member' => ?_⟩⟩
  · obtain ⟨inTree, _⟩ := List.mem_filter.mp isBlock
    obtain ⟨inBlock, known⟩ := List.mem_filter.mp isRelationship
    have below := Node.mem_subtrees_of_below (Node.mem_subtreesOf.mpr ⟨block, inTree,
      Node.mem_subtrees_of_below (Node.mem_subtreesOf_self inBlock)⟩)
    obtain ⟨r, declares, kind⟩ := Relationship.exists_of_shaped (shaped n below)
      (beq_iff_eq.mp known) ((block.childText .relationshipType).getD "")
    have declared : r ∈ Relationship.declaredIn _ := List.mem_flatMap.mpr ⟨block, isBlock,
      List.mem_filterMap.mpr ⟨n, isRelationship, declares⟩⟩
    exact ⟨r, List.mem_filter.mpr ⟨declared, beq_iff_eq.mpr kind⟩, declares⟩
  · rw [EntityBuilder.relationshipsOf_ofTree, OrderedMap.length_ofEntries, List.map_map]
    rfl
  · obtain ⟨among, isKind⟩ := List.mem_filter.mp member
    obtain ⟨among', isKind'⟩ := List.mem_filter.mp member'
    have spelled {r : Relationship} (member : r ∈ Relationship.declaredIn _) : r.Spelled :=
      Relationship.spelled_of_mem_declaredIn shaped accepted ordered (Token.lex_spelled lexed)
        member
    exact Relationship.key_eq_iff ((beq_iff_eq.mp isKind).trans (beq_iff_eq.mp isKind').symm)
      (spelled among) (spelled among')

namespace Relationship

/-- Relationships that differ in the fields of their ends. -/
def keptSource : String :=
  "relationship OneToMany \x7b\n  A\x7bx required\x7d to B\n  A\x7bx\x7d to B_C\x7by\x7d\n\x7d\n"

theorem ofEntityTree_relationships_fields :
    ∃ p, Parse.ofSource? .entity 10 keptSource = .ok p ∧ p.faults = [] ∧
      ∀ r ∈ declaredUnder "OneToMany" p.tree.children,
        ∀ r' ∈ declaredUnder "OneToMany" p.tree.children,
          (r.key = r'.key ↔ r.SameEnds r' ∨ r.MovesUnderscore r' ∨ r'.MovesUnderscore r) := by
  obtain ⟨tokens, lexed⟩ : ∃ tokens, Token.lex keptSource = .ok tokens :=
    Token.exists_of_isOk (by decide +kernel)
  have parsed := Parse.ofSource?_of_lex lexed .entity 10
  have computed : (Token.lex keptSource).toOption.map
      (fun tokens => (Parse.ofTokens .entity 10 tokens).faults) = some [] := by
    decide +kernel
  rw [lexed] at computed
  have faultless := Option.some.inj computed
  obtain ⟨_, _, kinds⟩ := Model.ofEntityTree_relationships parsed faultless
  exact ⟨_, parsed, faultless, (kinds "OneToMany").2.2⟩

/-- Relationships of which the first and the last two have one key each. -/
def lostSource : String :=
  "relationship OneToMany \x7b\n  A_B to C\n  A to B_C\n" ++
  "  D\x7bx required\x7d to E\n  D\x7bxrequired\x7d to E\n\x7d\n"

/-- Of four relationships with different ends two are lost. -/
theorem ofEntityTree_relationships_lost :
    ∃ p, Parse.ofSource? .entity 10 lostSource = .ok p ∧ p.faults = [] ∧
      ((EntityBuilder.ofTree p.tree).document.relationshipsOf "OneToMany").length = 2 ∧
      ∃ a b c d, declaredUnder "OneToMany" p.tree.children = [a, b, c, d] ∧
        (a.key = b.key ∧ a.source.entity = "A_B" ∧ b.source.entity = "A") ∧
        c.key = d.key ∧ c.source.field = some "x" ∧ d.source.field = some "xrequired" := by
  obtain ⟨tokens, lexed⟩ : ∃ tokens, Token.lex lostSource = .ok tokens :=
    Token.exists_of_isOk (by decide +kernel)
  refine ⟨_, Parse.ofSource?_of_lex lexed .entity 10, ?_⟩
  have counts : ((Token.lex lostSource).toOption.map fun tokens =>
      let p := Parse.ofTokens .entity 10 tokens
      (p.faults, ((EntityBuilder.ofTree p.tree).document.relationshipsOf "OneToMany").length)) =
      some ([], 2) := by
    decide +kernel
  have ends : ((Token.lex lostSource).toOption.map fun tokens =>
      (declaredUnder "OneToMany" (Parse.ofTokens .entity 10 tokens).tree.children).map fun r =>
        (r.key, r.source.entity, r.source.field)) =
      some [("OneToMany_A_B_C", "A_B", none), ("OneToMany_A_B_C", "A", none),
        ("OneToMany_D\x7bxrequired\x7d_E", "D", some "x"),
        ("OneToMany_D\x7bxrequired\x7d_E", "D", some "xrequired")] := by
    decide +kernel
  rw [lexed] at counts ends
  obtain ⟨noFault, count⟩ := Prod.mk.inj (Option.some.inj counts)
  refine ⟨noFault, count, ?_⟩
  obtain ⟨a, _, declared, endsA, ends⟩ := List.map_eq_cons_iff.mp (Option.some.inj ends)
  obtain ⟨b, _, rfl, endsB, ends⟩ := List.map_eq_cons_iff.mp ends
  obtain ⟨c, _, rfl, endsC, ends⟩ := List.map_eq_cons_iff.mp ends
  obtain ⟨d, _, rfl, endsD, ends⟩ := List.map_eq_cons_iff.mp ends
  rw [List.map_eq_nil_iff.mp ends] at declared
  simp only [Prod.mk.injEq] at endsA endsB endsC endsD
  exact ⟨a, b, c, d, declared, ⟨endsA.1.trans endsB.1.symm, endsA.2.1, endsB.2.1⟩,
    endsC.1.trans endsD.1.symm, endsC.2.2, endsD.2.2⟩

end Relationship

end EntityFlow
