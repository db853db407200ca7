import EntityFlow.Document.EntityBuilder
import EntityFlow.Proofs.Text.Lines

/-!
# Addresses

What a source declares has an address in the document: the keys that lead to it. The place of a
declaration in the source is recorded under the path of its address, the keys with dots between
them, and the place of its name under this path with `.name` behind it.

Where no declared name, field type or kind of relationships has a dot, paths tell addresses apart
(`Address.eq_of_path_eq`), and only the path of a relationship can be the path of a name at the same
time (`Address.relationships_of_name`). The keys of relationships may have dots.
-/

namespace EntityFlow

/-! ## Addresses and their paths -/

@[simp] theorem Section.key_entities : Section.entities.key = "entities" := rfl

@[simp] theorem Section.key_events : Section.events.key = "events" := rfl

@[simp] theorem Section.key_inputs : Section.inputs.key = "inputs" := rfl

theorem Section.key_mem (part : Section) : part.key ∈ ["entities", "events", "inputs"] := by
  cases part <;> decide

/-- Where a document has what is declared. -/
inductive Address
  /-- An entity of a part of the document, or an event or input. -/
  | entity (part : Section) (name : String)
  | enum (name : String)
  | service (name : String)
  | method (owner name : String)
  /-- A relationship under its key, among those of its kind. -/
  | relationship (kind key : String)
  | flow (name : String)
  | system (owner name : String)
  | start (owner name : String)
deriving Repr, DecidableEq

namespace Address

/-- The path under which the place of a declaration is recorded. -/
def path : Address → String
  | .entity part name => part.key ++ "." ++ name
  | .enum name => "enums." ++ name
  | .service name => "services." ++ name
  | .method owner name => "services." ++ owner ++ ".methods." ++ name
  | .relationship kind key => "relationships." ++ kind ++ "." ++ key
  | .flow name => "flows." ++ name
  | .system owner name => "flows." ++ owner ++ ".systems." ++ name
  | .start owner name => "flows." ++ owner ++ ".starts." ++ name

/-- The keys that lead through the document to the last key. -/
def container : Address → List String
  | .entity part _ => [part.key]
  | .enum _ => ["enums"]
  | .service _ => ["services"]
  | .method owner _ => ["services", owner, "methods"]
  | .relationship kind _ => ["relationships", kind]
  | .flow _ => ["flows"]
  | .system owner _ => ["flows", owner, "systems"]
  | .start owner _ => ["flows", owner, "starts"]

/-- The keys that are the same in every document. -/
def fixedKeys : List String :=
  ["entities", "events", "inputs", "enums", "services", "methods", "relationships", "flows",
    "systems", "starts"]

/-- The last key. -/
def key : Address → String
  | .entity _ name | .enum name | .service name | .method _ name => name
  | .relationship _ key => key
  | .flow name | .system _ name | .start _ name => name

/-- All keys. -/
def keys (a : Address) : List String := a.container ++ [a.key]

/-- The declared names, field types and kinds of relationships in an address. -/
def names : Address → List String
  | .entity _ name | .enum name | .service name | .flow name => [name]
  | .method owner name | .system owner name | .start owner name => [owner, name]
  | .relationship kind _ => [kind]

/-- Whether an address is that of a relationship. -/
def isRelationship : Address → Bool
  | .relationship _ _ => true
  | _ => false

/-- That no declared name, field type or kind of relationships in an address has a dot. -/
def Undotted (a : Address) : Prop := ∀ name ∈ a.names, '.' ∉ name.toList

instance (a : Address) : Decidable a.Undotted :=
  inferInstanceAs (Decidable (∀ name ∈ a.names, '.' ∉ name.toList))

/-- The address that some keys lead to. -/
def ofKeys? : List String → Option Address
  | ["entities", name] => some (.entity .entities name)
  | ["events", name] => some (.entity .events name)
  | ["inputs", name] => some (.entity .inputs name)
  | ["enums", name] => some (.enum name)
  | ["services", name] => some (.service name)
  | ["services", owner, "methods", name] => some (.method owner name)
  | "relationships" :: kind :: key =>
      some (.relationship kind (String.ofList (Text.join ['.'] (key.map String.toList))))
  | ["flows", name] => some (.flow name)
  | ["flows", owner, "systems", name] => some (.system owner name)
  | ["flows", owner, "starts", name] => some (.start owner name)
  | _ => none

/-- The address that a path shows. -/
def ofPath? (path : String) : Option Address :=
  ofKeys? ((Text.splitAtChar '.' path.toList).map String.ofList)

/-- The keys of an address tell the address. -/
theorem ofKeys?_keys (a : Address) : ofKeys? a.keys = some a := by
  cases a with
  | entity part name => cases part <;> rfl
  | relationship kind last =>
      have joined : Text.join ['.'] [last.toList] = last.toList := by
        simp [Text.join]
      show some (relationship kind (String.ofList (Text.join ['.'] [last.toList]))) = _
      rw [joined, String.ofList_toList]
  | _ => rfl

theorem eq_of_keys_eq {a b : Address} (same : a.keys = b.keys) : a = b := by
  have known := ofKeys?_keys a
  rw [same, ofKeys?_keys b] at known
  exact (Option.some.inj known).symm

section Pieces

variable {a b : Address}

theorem container_subset (a : Address) : a.container ⊆ fixedKeys ++ a.names := by
  intro key member
  cases a with
  | entity part name =>
      rw [List.mem_singleton.mp member]
      exact List.mem_append_left _ (List.subset_append_left _ _ part.key_mem)
  | _ =>
      simp only [container, List.mem_cons, List.not_mem_nil, or_false] at member
      rcases member with rfl | rfl | rfl <;> simp [fixedKeys, names]

theorem container_undotted (undotted : a.Undotted) : ∀ key ∈ a.container, '.' ∉ key.toList := by
  intro key member
  rcases List.mem_append.mp (a.container_subset member) with fixed | name
  · have free : ∀ key ∈ fixedKeys, '.' ∉ key.toList := by decide
    exact free key fixed
  · exact undotted key name

theorem toList_path (a : Address) :
    a.path.toList = a.container.foldr (fun key rest => key.toList ++ '.' :: rest) a.key.toList := by
  cases a <;> simp [path, container, key, String.toList_append]

theorem splitAtChar_foldr {keys : List String} (free : ∀ key ∈ keys, '.' ∉ key.toList)
    (last : List Char) :
    Text.splitAtChar '.' (keys.foldr (fun key rest => key.toList ++ '.' :: rest) last) =
      keys.map String.toList ++ Text.splitAtChar '.' last := by
  induction keys with
  | nil => rfl
  | cons key rest ih =>
      have here := free key List.mem_cons_self
      have later := ih fun other member => free other (List.mem_cons_of_mem _ member)
      rw [List.foldr_cons, Text.splitAtChar_append_cons, Text.splitAtChar_of_not_mem here, later]
      rfl

/-- The pieces of a path are the keys of its address, of which the last one may be several. -/
theorem splitAtChar_path (undotted : a.Undotted) :
    Text.splitAtChar '.' a.path.toList =
      a.container.map String.toList ++ Text.splitAtChar '.' a.key.toList := by
  rw [toList_path, splitAtChar_foldr (container_undotted undotted)]

/-- The pieces of a key are joined to the key. -/
theorem ofList_join_pieces (key : String) :
    String.ofList (Text.join ['.'] (((Text.splitAtChar '.' key.toList).map String.ofList).map
      String.toList)) = key := by
  have same : String.toList ∘ String.ofList = id := by
    funext cs
    exact String.toList_ofList
  rw [List.map_map, same, List.map_id, Text.join_splitAtChar, String.ofList_toList]

theorem map_ofList_splitAtChar_path (undotted : a.Undotted) :
    (Text.splitAtChar '.' a.path.toList).map String.ofList =
      a.container ++ (Text.splitAtChar '.' a.key.toList).map String.ofList := by
  rw [splitAtChar_path undotted, List.map_append, List.map_map]
  simp

theorem key_mem_names (other : a.isRelationship = false) : a.key ∈ a.names := by
  cases a with
  | relationship kind key => cases other
  | _ => simp [key, names]

/-- The pieces of a path without the key of a relationship in it are the keys. -/
theorem map_ofList_splitAtChar_path_keys (undotted : a.Undotted)
    (other : a.isRelationship = false) :
    (Text.splitAtChar '.' a.path.toList).map String.ofList = a.keys := by
  have free : '.' ∉ a.key.toList := undotted a.key (key_mem_names other)
  rw [map_ofList_splitAtChar_path undotted, Text.splitAtChar_of_not_mem free, List.map_singleton,
    String.ofList_toList, keys]

/-- **The path of an address tells the address**, if no name in it has a dot. -/
theorem ofPath?_path (undotted : a.Undotted) : ofPath? a.path = some a := by
  cases known : a.isRelationship with
  | false => rw [ofPath?, map_ofList_splitAtChar_path_keys undotted known, ofKeys?_keys]
  | true =>
      cases a with
      | relationship kind key =>
          -- the key may have dots, so its pieces are joined again
          rw [ofPath?, map_ofList_splitAtChar_path undotted]
          exact congrArg (some <| relationship kind ·) (ofList_join_pieces key)
      | _ => cases known

/-- No path is that of two addresses. -/
theorem eq_of_path_eq (undotted : a.Undotted) (undotted' : b.Undotted) (same : a.path = b.path) :
    a = b := by
  have known := ofPath?_path undotted
  rw [same, ofPath?_path undotted'] at known
  exact (Option.some.inj known).symm

theorem map_ofList_splitAtChar_name (path : String) :
    (Text.splitAtChar '.' (path ++ ".name").toList).map String.ofList =
      (Text.splitAtChar '.' path.toList).map String.ofList ++ ["name"] := by
  rw [String.toList_append]
  show (Text.splitAtChar '.' (path.toList ++ '.' :: "name".toList)).map String.ofList = _
  rw [Text.splitAtChar_append_cons, List.map_append]
  rfl

/-- Nothing has its keys behind the name of something else, unless that is a relationship. -/
theorem ofKeys?_below_name (other : a.isRelationship = false) (rest : List String) :
    ofKeys? (a.keys ++ "name" :: rest) = none := by
  cases a with
  | relationship kind key => cases other
  | entity part name => cases part <;> rfl
  | _ => cases rest <;> rfl

/-- **Only the path of a relationship can also be the path of a name**: that of a relationship of
the same kind. -/
theorem relationships_of_name (undotted : a.Undotted) (undotted' : b.Undotted)
    (same : b.path = a.path ++ ".name") :
    ∃ kind key, a = relationship kind key ∧ b = relationship kind (key ++ ".name") := by
  have known := ofPath?_path undotted'
  cases isRelationship : a.isRelationship with
  | false =>
      rw [ofPath?, same, map_ofList_splitAtChar_name,
        map_ofList_splitAtChar_path_keys undotted isRelationship,
        ofKeys?_below_name isRelationship] at known
      cases known
  | true =>
      cases a with
      | relationship kind key =>
          refine ⟨kind, key, rfl, eq_of_path_eq undotted' undotted ?_⟩
          rw [same]
          simp [path, String.append_assoc]
      | _ => cases isRelationship

/-- The name of a name is nothing, unless it is the key of a relationship. -/
theorem path_ne_name_name (undotted : a.Undotted) (undotted' : b.Undotted)
    (other : a.isRelationship = false) : b.path ≠ a.path ++ ".name" ++ ".name" := by
  intro same
  have known := ofPath?_path undotted'
  rw [ofPath?, same, map_ofList_splitAtChar_name, map_ofList_splitAtChar_name,
    map_ofList_splitAtChar_path_keys undotted other, List.append_assoc] at known
  rw [show a.keys ++ (["name"] ++ ["name"]) = a.keys ++ "name" :: ["name"] from rfl,
    ofKeys?_below_name other] at known
  cases known

end Pieces

end Address

end EntityFlow
