import EntityFlow.Record.Entity

/-!
# Trees without their places

A tree with the spans of its nodes changed (`Node.mapSpans`) is the same tree elsewhere. What a node
is asked for by the records and the document builders does not depend on where it stands: its parts,
its texts, its value (`Node.toValue_mapSpans`), its options and its documentation.
-/

namespace EntityFlow

namespace Node

mutual

/-- The tree with all spans changed. -/
def mapSpans (change : Span → Span) : Node → Node
  | ⟨k, text, span, parts⟩ => ⟨k, text, change span, mapSpansOf change parts⟩

/-- Some trees with all spans changed. -/
def mapSpansOf (change : Span → Span) : List Node → List Node
  | [] => []
  | n :: rest => n.mapSpans change :: mapSpansOf change rest

end

variable (change : Span → Span) (n : Node)

theorem mapSpansOf_eq (ns : List Node) : mapSpansOf change ns = ns.map (mapSpans change) := by
  induction ns with
  | nil => rw [mapSpansOf, List.map_nil]
  | cons n rest ih => rw [mapSpansOf, List.map_cons, ih]

theorem mapSpans_eq :
    n.mapSpans change =
      ⟨n.kind, n.text, change n.span, n.children.map (mapSpans change)⟩ := by
  cases n
  rw [mapSpans, mapSpansOf_eq]

@[simp] theorem kind_mapSpans : (n.mapSpans change).kind = n.kind := by
  rw [mapSpans_eq]

@[simp] theorem text_mapSpans : (n.mapSpans change).text = n.text := by
  rw [mapSpans_eq]

@[simp] theorem children_mapSpans :
    (n.mapSpans change).children = n.children.map (mapSpans change) := by
  rw [mapSpans_eq]

mutual

theorem mapSpans_id : (n : Node) → n.mapSpans id = n
  | ⟨k, text, span, parts⟩ => by rw [mapSpans, mapSpansOf_id parts, id]

theorem mapSpansOf_id : (ns : List Node) → mapSpansOf id ns = ns
  | [] => by rw [mapSpansOf]
  | n :: rest => by rw [mapSpansOf, mapSpans_id n, mapSpansOf_id rest]

end

/-! ## Parts -/

theorem find?_map_mapSpans (k : Kind) (ns : List Node) :
    (ns.map (mapSpans change)).find? (·.kind == k) =
      (ns.find? (·.kind == k)).map (mapSpans change) := by
  rw [List.find?_map]
  congr 2
  funext m
  simp

theorem filter_map_mapSpans (k : Kind) (ns : List Node) :
    (ns.map (mapSpans change)).filter (·.kind == k) =
      (ns.filter (·.kind == k)).map (mapSpans change) := by
  rw [List.filter_map]
  congr 2
  funext m
  simp

@[simp] theorem child_mapSpans (k : Kind) :
    (n.mapSpans change).child k = (n.child k).map (mapSpans change) := by
  rw [child, children_mapSpans, find?_map_mapSpans, child]

@[simp] theorem childrenOf_mapSpans (k : Kind) :
    (n.mapSpans change).childrenOf k = (n.childrenOf k).map (mapSpans change) := by
  rw [childrenOf, children_mapSpans, filter_map_mapSpans, childrenOf]

@[simp] theorem childText_mapSpans (k : Kind) :
    (n.mapSpans change).childText k = n.childText k := by
  rw [childText, child_mapSpans, childText, Option.map_map]
  congr 1
  funext m
  simp

@[simp] theorem hasChild_mapSpans (k : Kind) :
    (n.mapSpans change).hasChild k = n.hasChild k := by
  rw [hasChild, child_mapSpans, hasChild, Option.isSome_map]

/-! ## Values -/

@[simp] theorem keyText_mapSpans : (n.mapSpans change).keyText = n.keyText := by
  simp [keyText]

mutual

theorem toValue_mapSpans (change : Span → Span) : (n : Node) →
    (n.mapSpans change).toValue = n.toValue
  | ⟨k, text, span, parts⟩ => by
      have first := firstValue_mapSpans change text parts
      have values := toValues_mapSpans change parts
      have entries := toEntries_mapSpans change OrderedMap.empty parts
      rw [mapSpans]
      cases k with
      | value => rw [toValue, toValue, first]
      | optionValue => rw [toValue, toValue, first]
      | enumValueValue => rw [toValue, toValue, first]
      | importValue => rw [toValue, toValue, first]
      | array => rw [toValue, toValue, values]
      | arrayPlain => rw [toValue, toValue, values]
      | object => rw [toValue, toValue, entries]
      | pairs => rw [toValue, toValue, entries]
      | _ => rw [toValue, toValue] <;> simp

theorem firstValue_mapSpans (change : Span → Span) (text : String) : (ns : List Node) →
    firstValue text (mapSpansOf change ns) = firstValue text ns
  | [] => by rw [mapSpansOf]
  | n :: rest => by rw [mapSpansOf, firstValue, firstValue, toValue_mapSpans change n]

theorem toValues_mapSpans (change : Span → Span) : (ns : List Node) →
    toValues (mapSpansOf change ns) = toValues ns
  | [] => by rw [mapSpansOf]
  | n :: rest => by
      rw [mapSpansOf, toValues, toValues, toValue_mapSpans change n, toValues_mapSpans change rest]

theorem toEntries_mapSpans (change : Span → Span) (m : OrderedMap Value) : (ns : List Node) →
    toEntries m (mapSpansOf change ns) = toEntries m ns
  | [] => by rw [mapSpansOf]
  | ⟨k, text, span, parts⟩ :: rest => by
      have later (m : OrderedMap Value) := toEntries_mapSpans change m rest
      rw [mapSpansOf, mapSpans]
      by_cases isPair : k = .pair
      · subst isPair
        match parts with
        | [] =>
            rw [mapSpansOf, toEntries, toEntries, later] <;> simp
        | [key] =>
            rw [mapSpansOf, mapSpansOf, toEntries, toEntries, later, keyText_mapSpans]
        | key :: value :: more =>
            rw [mapSpansOf, mapSpansOf, toEntries, toEntries, later, keyText_mapSpans,
              toValue_mapSpans change value]
      · rw [toEntries, toEntries, later] <;> simp [isPair]

end

attribute [simp] toValue_mapSpans

@[simp] theorem toText_mapSpans : (n.mapSpans change).toText = n.toText := by
  simp [toText]

theorem valueOrTrue_map_mapSpans (n : Option Node) :
    valueOrTrue (n.map (mapSpans change)) = valueOrTrue n := by
  cases n <;> simp [valueOrTrue]

@[simp] theorem documentation?_mapSpans :
    (n.mapSpans change).documentation? = n.documentation? := by
  simp [documentation?]

@[simp] theorem options_mapSpans : (n.mapSpans change).options = n.options := by
  rw [options, childrenOf_mapSpans, options, List.filterMap_map]
  congr 1
  funext option
  simp [valueOrTrue_map_mapSpans]

end Node

/-! ## Records -/

namespace Field

variable (change : Span → Span) (n : Node)

theorem validation?_mapSpans : validation? (n.mapSpans change) = validation? n := by
  simp [validation?]

@[simp] theorem ofNode_mapSpans : Field.ofNode (n.mapSpans change) = Field.ofNode n := by
  have validations : ((n.mapSpans change).childrenOf .fieldValidation).filterMap validation? =
      (n.childrenOf .fieldValidation).filterMap validation? := by
    rw [Node.childrenOf_mapSpans, List.filterMap_map]
    congr 1
    funext m
    exact validation?_mapSpans change m
  rw [ofNode, ofNode, validations]
  cases type : n.child .fieldType <;> simp [type]

end Field

@[simp] theorem RelationshipEnd.ofNode_mapSpans (change : Span → Span) (n : Node) :
    RelationshipEnd.ofNode (n.mapSpans change) = RelationshipEnd.ofNode n := by
  rw [ofNode, ofNode, Node.child_mapSpans]
  cases n.child .relationshipDefinition <;> simp

end EntityFlow
