import Mathlib.Data.List.Basic
import EntityFlow.Proofs.Text.Lines
import EntityFlow.Proofs.Value.Written
import EntityFlow.Value.Basic

/-!
# Dotted paths

A path leads into a value one segment after the other (`Value.paths_compose_and_reach`):

* **paths compose**: a path is followed up to a dot, and what is behind the dot is followed from
  the value found there (`Value.lookup?_append`);
* **paths reach everything**: a position that is reached through keys that are segments and through
  indices that fit into a word has a path, its keys and decimal indices with dots between them, and
  this path leads to the value at the position (`Value.Reaches.foldlM_segments`);
* **paths reach nothing else**: what a path leads to stands at some position
  (`Value.exists_reaches_of_lookup?`).

A segment does not tell a key from an index. The value that it is followed in does, so keys of
digits are no obstacle.
-/

namespace EntityFlow

namespace Value

/-! ## Segments -/

/-- That a text is one segment of a path: it is not empty and has no dot. -/
def IsSegment (key : String) : Prop := key ≠ "" ∧ '.' ∉ key.toList

instance (key : String) : Decidable (IsSegment key) :=
  inferInstanceAs (Decidable (key ≠ "" ∧ '.' ∉ key.toList))

theorem segments_of_isSegment {key : String} (isSegment : IsSegment key) :
    segments key = [key.toList] := by
  have some : key.toList ≠ [] := by
    rw [Ne, String.toList_eq_nil_iff]
    exact isSegment.1
  rw [segments, Text.splitAtChar_of_not_mem isSegment.2, List.filter_singleton]
  simp [some]

theorem segments_append (front back : String) :
    segments (front ++ "." ++ back) = segments front ++ segments back := by
  have chars : (front ++ "." ++ back).toList = front.toList ++ '.' :: back.toList := by
    simp [String.toList_append]
  rw [segments, chars, Text.splitAtChar_append_cons, List.filter_append]
  rfl

/-- A path is followed up to a dot and from there on. -/
theorem lookup?_append (v : Value) (front back : String) :
    v.lookup? (front ++ "." ++ back) = (v.lookup? front).bind (·.lookup? back) := by
  rw [lookup?, segments_append, List.foldlM_append]
  rfl

/-- The path of nothing but segments has these segments. -/
theorem segments_intercalate {keys : List String} (plain : ∀ key ∈ keys, IsSegment key) :
    segments (".".intercalate keys) = keys.map String.toList := by
  induction keys with
  | nil => rfl
  | cons key rest ih =>
      obtain ⟨isSegment, plainRest⟩ := List.forall_mem_cons.mp plain
      cases rest with
      | nil => exact segments_of_isSegment isSegment
      | cons next rest =>
          rw [String.intercalate_cons_cons, segments_append, segments_of_isSegment isSegment,
            ih plainRest]
          rfl

/-- The step of a mapping under a key. -/
theorem step?_mapping (m : OrderedMap Value) (key : String) :
    (Value.mapping m).step? key.toList = m.value? key := by
  rw [step?, String.ofList_toList]

theorem lookup?_mapping (m : OrderedMap Value) {key : String} (isSegment : IsSegment key) :
    (Value.mapping m).lookup? key = m.value? key := by
  rw [lookup?, segments_of_isSegment isSegment, List.foldlM_cons, step?_mapping]
  exact Option.bind_fun_some _

/-! ## Indices -/

theorem toList_toString (i : Nat) : (toString i).toList = Integer.digits i := by
  rw [Nat.toString_eq_ofList_toDigits, String.toList_ofList, Integer.digits]

theorem isSegment_toString (i : Nat) : IsSegment (toString i) := by
  refine ⟨?_, ?_⟩
  · rw [Ne, ← String.toList_eq_nil_iff, toList_toString]
    exact Nat.toDigits_ne_nil
  · rw [toList_toString]
    intro dot
    have digit := Integer.isDigit_of_mem_digits '.' dot
    exact absurd digit (by decide)

/-- Digits stand for the index that they are the digits of. -/
theorem index?_of_isDigit {cs : List Char} (filled : cs ≠ [])
    (digits : ∀ c ∈ cs, c.isDigit = true) (small : Integer.ofDigits cs < Nat.pow 2 64) :
    index? cs = some (Integer.ofDigits cs) := by
  cases cs with
  | nil => exact absurd rfl filled
  | cons c rest =>
      have unsigned : c ≠ '+' := Integer.ne_of_isDigit (digits c List.mem_cons_self) (by decide)
      have all : (c :: rest).all Char.isDigit = true := List.all_eq_true.mpr digits
      have accepted : ¬(c :: rest = [] ∨ (!(c :: rest).all Char.isDigit) = true) := by simp [all]
      rw [index?, if_neg accepted]
      · exact if_pos small
      · -- the first digit is no sign, so nothing is taken off
        intro front same
        exact unsigned (List.cons.inj same).1

theorem index?_digits {i : Nat} (small : i < Nat.pow 2 64) :
    index? (Integer.digits i) = some i := by
  have reads := Integer.ofDigits_digits i
  have found : index? (Integer.digits i) = some (Integer.ofDigits (Integer.digits i)) :=
    index?_of_isDigit Nat.toDigits_ne_nil Integer.isDigit_of_mem_digits (reads.symm ▸ small)
  rwa [reads] at found

/-! ## Positions -/

/-- One step of a position: to the value of a key or to the item at an index. -/
inductive Step
  | key (name : String)
  | index (i : Nat)
deriving Repr, DecidableEq

namespace Step

/-- The segment that stands for a step. -/
def segment : Step → String
  | key name => name
  | index i => toString i

/-- That a path can tell a step: its key is a segment, or its index is below `2 ^ 64`. -/
def Plain : Step → Prop
  | key name => IsSegment name
  | index i => i < Nat.pow 2 64

instance : DecidablePred Plain
  | key name => inferInstanceAs (Decidable (IsSegment name))
  | index i => inferInstanceAs (Decidable (i < Nat.pow 2 64))

theorem Plain.isSegment {s : Step} (plain : s.Plain) : IsSegment s.segment := by
  cases s with
  | key name => exact plain
  | index i => exact isSegment_toString i

/-- The path of a position. -/
def path (steps : List Step) : String := ".".intercalate (steps.map segment)

theorem segments_path {steps : List Step} (plain : ∀ s ∈ steps, s.Plain) :
    segments (path steps) = steps.map fun s => s.segment.toList := by
  have isSegment : ∀ key ∈ steps.map segment, IsSegment key := by
    intro key member
    obtain ⟨s, isStep, rfl⟩ := List.mem_map.mp member
    exact (plain s isStep).isSegment
  rw [path, segments_intercalate isSegment, List.map_map]
  rfl

end Step

/-- `v.Reaches steps w`: the steps lead from `v` to `w`, through the values of keys and the items
at indices. -/
inductive Reaches : Value → List Step → Value → Prop
  | here (v : Value) : Reaches v [] v
  | entry {entries : OrderedMap Value} {name : String} {inner w : Value} {steps : List Step}
      (found : entries.value? name = some inner) (rest : Reaches inner steps w) :
      Reaches (.mapping entries) (.key name :: steps) w
  | item {items : List Value} {i : Nat} {inner w : Value} {steps : List Step}
      (found : items[i]? = some inner) (rest : Reaches inner steps w) :
      Reaches (.sequence items) (.index i :: steps) w

/-- The segments of a position are followed step by step. -/
theorem Reaches.foldlM_segments {v w : Value} {steps : List Step} (reaches : v.Reaches steps w)
    (plain : ∀ s ∈ steps, s.Plain) :
    steps.foldlM (fun v s => v.step? s.segment.toList) v = some w := by
  induction reaches with
  | here v => rfl
  | entry found rest ih =>
      obtain ⟨-, plainRest⟩ := List.forall_mem_cons.mp plain
      rw [List.foldlM_cons, Step.segment, step?_mapping, found]
      exact ih plainRest
  | item found rest ih =>
      -- in a sequence the digits are read back as the index
      obtain ⟨small, plainRest⟩ := List.forall_mem_cons.mp plain
      rw [List.foldlM_cons, Step.segment, toList_toString, step?, index?_digits small,
        Option.bind_some, found]
      exact ih plainRest

/-- A step of a path is a step of a position. -/
theorem exists_reaches_of_step? {v inner : Value} {segment : List Char}
    (found : v.step? segment = some inner) :
    ∃ s : Step, ∀ steps w, Reaches inner steps w → Reaches v (s :: steps) w := by
  cases v with
  | mapping entries => exact ⟨.key (String.ofList segment), fun _ _ => .entry found⟩
  | sequence items =>
      obtain ⟨i, -, isItem⟩ := Option.bind_eq_some_iff.mp found
      exact ⟨.index i, fun _ _ => .item isItem⟩
  | _ => cases found

/-- What a path leads to stands at a position, as many steps deep as the path has segments. -/
theorem exists_reaches_of_lookup? {v w : Value} {path : String} (found : v.lookup? path = some w) :
    ∃ steps, v.Reaches steps w ∧ steps.length = (segments path).length := by
  rw [lookup?] at found
  generalize segments path = segs at found
  induction segs generalizing v with
  | nil =>
      cases found
      exact ⟨[], .here _, rfl⟩
  | cons segment rest ih =>
      rw [List.foldlM_cons] at found
      obtain ⟨inner, first, later⟩ := Option.bind_eq_some_iff.mp found
      obtain ⟨steps, reaches, count⟩ := ih later
      obtain ⟨s, extend⟩ := exists_reaches_of_step? first
      exact ⟨s :: steps, extend steps w reaches, congrArg (· + 1) count⟩

/-- **Dotted paths compose and reach everything.** What is behind a dot is followed from the value
that the path up to the dot leads to, and every position whose keys are segments and whose indices
fit into a word has a path that leads to the value there. -/
theorem paths_compose_and_reach :
    (∀ (v : Value) (front back : String),
      v.lookup? (front ++ "." ++ back) = (v.lookup? front).bind (·.lookup? back)) ∧
    ∀ (v w : Value) (steps : List Step), v.Reaches steps w → (∀ s ∈ steps, s.Plain) →
      v.lookup? (Step.path steps) = some w := by
  refine ⟨lookup?_append, ?_⟩
  intro v w steps reaches plain
  rw [lookup?, Step.segments_path plain, List.foldlM_map]
  exact reaches.foldlM_segments plain

/-- A key of digits in front of an index, and an index with a key behind it. -/
theorem lookup?_key_of_digits :
    let leaf := Value.string "x"
    let v := Value.mapping [("7", .sequence [.boolean false, .mapping [("a", leaf)]])]
    let steps := [Step.key "7", .index 1, .key "a"]
    v.Reaches steps leaf ∧ (∀ s ∈ steps, s.Plain) ∧ Step.path steps = "7.1.a" ∧
      v.lookup? (Step.path steps) = some leaf := by
  intro leaf v steps
  have reaches : v.Reaches steps leaf := .entry rfl (.item rfl (.entry rfl (.here leaf)))
  have plain : ∀ s ∈ steps, s.Plain := by decide
  exact ⟨reaches, plain, by decide, paths_compose_and_reach.2 v leaf steps reaches plain⟩

/-- Signs and zeros in front of an index change nothing, and neither do empty segments. -/
example : (Value.sequence [.boolean false, .integer 5]).lookup? "..+01." = some (.integer 5) := by
  rfl

end Value

end EntityFlow
