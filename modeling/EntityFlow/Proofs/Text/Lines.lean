import Mathlib.Data.List.TakeWhile
import EntityFlow.Text.Line

/-!
# Pieces of texts and blanks at their ends

A text is split at a separator into pieces, and pieces are joined with it to a text:

* **joining undoes splitting** for every text (`Text.join_splitAtChar`), and splitting undoes
  joining where no piece has the separator in it (`Text.splitAtChar_join`);
* **marks** that do not hold the separator stand in a joined text if and only if they stand in one
  of its pieces (`Text.infix_join_iff`);
* **trimming** takes away every blank at the two ends (`Text.trim_between`) and nothing else
  (`Text.trim_eq_self`).
-/

namespace EntityFlow

namespace Text

/-! ## Texts between separators -/

theorem splitAtChar_ne_nil (c : Char) (cs : List Char) : splitAtChar c cs ≠ [] := by
  induction cs with
  | nil => exact List.cons_ne_nil _ _
  | cons d rest ih =>
      rw [splitAtChar]
      split
      · exact List.cons_ne_nil _ _
      · simpa using ih

/-- A text without separators is one piece. -/
theorem splitAtChar_of_not_mem {c : Char} {cs : List Char} (free : c ∉ cs) :
    splitAtChar c cs = [cs] := by
  induction cs with
  | nil => rfl
  | cons d rest ih =>
      have other : d ≠ c := fun same => free (same ▸ List.mem_cons_self)
      rw [splitAtChar, if_neg other, ih (List.not_mem_of_not_mem_cons free)]
      rfl

/-- A text is split at a separator into the pieces in front of it and those behind it. -/
theorem splitAtChar_append_cons (c : Char) (front back : List Char) :
    splitAtChar c (front ++ c :: back) = splitAtChar c front ++ splitAtChar c back := by
  induction front with
  | nil =>
      show splitAtChar c (c :: back) = [] :: splitAtChar c back
      rw [splitAtChar, if_pos rfl]
  | cons d rest ih =>
      rw [List.cons_append, splitAtChar, splitAtChar, ih]
      split
      · rfl
      · obtain ⟨piece, pieces, known⟩ := List.exists_cons_of_ne_nil (splitAtChar_ne_nil c rest)
        rw [known]
        rfl

/-- The pieces of a text tell what the text is. -/
theorem join_splitAtChar (c : Char) (cs : List Char) : join [c] (splitAtChar c cs) = cs := by
  induction cs with
  | nil => rfl
  | cons d rest ih =>
      obtain ⟨piece, pieces, known⟩ := List.exists_cons_of_ne_nil (splitAtChar_ne_nil c rest)
      rw [splitAtChar]
      rw [known] at ih ⊢
      split
      · rename_i same
        rw [same]
        exact congrArg (c :: ·) ih
      · show join [c] ((d :: piece) :: pieces) = d :: rest
        rw [← ih]
        cases pieces <;> rfl

/-- No piece has the separator in it. -/
theorem not_mem_of_mem_splitAtChar {c : Char} {cs piece : List Char}
    (member : piece ∈ splitAtChar c cs) : c ∉ piece := by
  induction cs generalizing piece with
  | nil =>
      rw [List.mem_singleton.mp member]
      exact List.not_mem_nil
  | cons d rest ih =>
      rw [splitAtChar] at member
      split at member
      · rcases List.mem_cons.mp member with rfl | later
        · exact List.not_mem_nil
        · exact ih later
      · rename_i other
        obtain ⟨first, pieces, known⟩ := List.exists_cons_of_ne_nil (splitAtChar_ne_nil c rest)
        rw [known] at ih member
        rcases List.mem_cons.mp member with rfl | later
        · intro inside
          rcases List.mem_cons.mp inside with same | inside
          · exact other same.symm
          · exact ih List.mem_cons_self inside
        · exact ih (List.mem_cons_of_mem _ later)

/-! ## Pieces joined -/

section Joined

variable {c : Char} {sep mark front back piece : List Char} {pieces : List (List Char)}

theorem join_cons_of_ne_nil (some : pieces ≠ []) :
    join sep (piece :: pieces) = piece ++ sep ++ join sep pieces := by
  obtain ⟨next, rest, rfl⟩ := List.exists_cons_of_ne_nil some
  exact List.intercalate_cons_cons

theorem join_concat (some : pieces ≠ []) :
    join sep (pieces ++ [piece]) = join sep pieces ++ sep ++ piece := by
  induction pieces with
  | nil => exact absurd rfl some
  | cons first rest ih =>
      cases rest with
      | nil => simp [join]
      | cons next rest =>
          rw [List.cons_append, join_cons_of_ne_nil (by simp), ih (List.cons_ne_nil _ _),
            join_cons_of_ne_nil (List.cons_ne_nil _ _)]
          simp only [List.append_assoc]

/-- What stands in front of the first piece stands in front of the joined text. -/
theorem join_append_cons : join sep ((front ++ piece) :: pieces) =
    front ++ join sep (piece :: pieces) := by
  cases pieces with
  | nil => simp [join]
  | cons next rest =>
      rw [join_cons_of_ne_nil (List.cons_ne_nil _ _), join_cons_of_ne_nil (List.cons_ne_nil _ _)]
      simp only [List.append_assoc]

/-- What stands behind the last piece stands behind the joined text. -/
theorem join_append_last : join sep (pieces ++ [piece ++ back]) =
    join sep (pieces ++ [piece]) ++ back := by
  by_cases some : pieces = []
  · simp [some, join]
  · rw [join_concat some, join_concat some, List.append_assoc _ piece]

theorem splitAtChar_join (some : pieces ≠ []) (free : ∀ piece ∈ pieces, c ∉ piece) :
    splitAtChar c (join [c] pieces) = pieces := by
  induction pieces with
  | nil => exact absurd rfl some
  | cons first rest ih =>
      obtain ⟨freeFirst, freeRest⟩ := List.forall_mem_cons.mp free
      cases rest with
      | nil =>
          show splitAtChar c (join [c] [first]) = [first]
          rw [join, List.intercalate_singleton, splitAtChar_of_not_mem freeFirst]
      | cons next rest =>
          have later := ih (List.cons_ne_nil _ _) freeRest
          rw [join_cons_of_ne_nil (List.cons_ne_nil _ _), List.append_assoc, List.singleton_append,
            splitAtChar_append_cons, splitAtChar_of_not_mem freeFirst, later]
          rfl

/-- A mark that does not hold a character stands on one side of it. -/
theorem infix_append_cons_iff (free : c ∉ mark) :
    mark <:+: front ++ c :: back ↔ mark <:+: front ∨ mark <:+: back := by
  have empty {text : List Char} (free : c ∉ text) (starts : text <+: c :: back) : text = [] := by
    cases text with
    | nil => rfl
    | cons d tail =>
        obtain ⟨same, -⟩ := List.cons_prefix_cons.mp starts
        exact absurd (same ▸ List.mem_cons_self) free
  constructor
  · intro inside
    rcases List.infix_append_iff.mp inside with before | behind | ⟨first, second, rfl, ends, starts⟩
    · exact .inl before
    · rcases List.infix_cons_iff.mp behind with starts | later
      · rw [empty free starts]
        exact .inl (List.nil_infix)
      · exact .inr later
    · rw [empty (fun member => free (List.mem_append_right _ member)) starts, List.append_nil]
      exact .inl ends.isInfix
  · rintro (before | behind)
    · exact before.trans (List.prefix_append _ _).isInfix
    · exact behind.trans ((List.suffix_cons _ _).trans (List.suffix_append _ _)).isInfix

/-- A mark that does not hold the separator stands in one of the pieces. -/
theorem infix_join_iff (free : c ∉ mark) (some : pieces ≠ []) :
    mark <:+: join [c] pieces ↔ ∃ piece ∈ pieces, mark <:+: piece := by
  induction pieces with
  | nil => exact absurd rfl some
  | cons first rest ih =>
      cases rest with
      | nil => simp [join]
      | cons next rest =>
          rw [join_cons_of_ne_nil (List.cons_ne_nil _ _), List.append_assoc, List.singleton_append,
            infix_append_cons_iff free, ih (List.cons_ne_nil _ _)]
          simp only [List.mem_cons, exists_eq_or_imp]

/-- The characters of a joined text are those of the separator and of the pieces. -/
theorem mem_join {d : Char} (member : d ∈ join sep pieces) :
    d ∈ sep ∨ ∃ piece ∈ pieces, d ∈ piece := by
  induction pieces with
  | nil => cases member
  | cons first rest ih =>
      by_cases some : rest = []
      · subst some
        rw [join, List.intercalate_singleton] at member
        exact .inr ⟨first, List.mem_cons_self, member⟩
      · rw [join_cons_of_ne_nil some, List.append_assoc, List.mem_append, List.mem_append] at member
        rcases member with inFirst | inSep | later
        · exact .inr ⟨first, List.mem_cons_self, inFirst⟩
        · exact .inl inSep
        · rcases ih later with inSep | ⟨piece, among, inside⟩
          · exact .inl inSep
          · exact .inr ⟨piece, List.mem_cons_of_mem _ among, inside⟩

/-- Where no piece is empty, no separator stands at an end of the text or beside another one. -/
theorem separated_of_nonempty {cs : List Char} (full : [] ∉ splitAtChar c cs) :
    cs.head? ≠ some c ∧ cs.getLast? ≠ some c ∧ ¬ [c, c] <:+: cs := by
  refine ⟨fun first => full ?_, fun last => full ?_, fun doubled => full ?_⟩
  · obtain ⟨rest, rfl⟩ := List.head?_eq_some_iff.mp first
    rw [splitAtChar, if_pos rfl]
    exact List.mem_cons_self
  · obtain ⟨front, rfl⟩ := List.getLast?_eq_some_iff.mp last
    rw [splitAtChar_append_cons]
    exact List.mem_append_right _ (List.mem_singleton.mpr rfl)
  · obtain ⟨front, back, rfl⟩ := doubled
    rw [List.append_assoc, List.cons_append, splitAtChar_append_cons]
    apply List.mem_append_right
    rw [List.singleton_append, splitAtChar, if_pos rfl]
    exact List.mem_cons_self

end Joined

/-! ## Affixes and blanks -/

section Ends

variable {front cs back : List Char}

theorem dropFront_append (affix cs : List Char) : dropFront affix (affix ++ cs) = cs := by
  rw [dropFront, if_pos (List.isPrefixOf_iff_prefix.mpr (List.prefix_append _ _)), List.drop_left]

theorem dropBack_append (cs affix : List Char) : dropBack affix (cs ++ affix) = cs := by
  rw [dropBack, if_pos (List.isSuffixOf_iff_suffix.mpr (List.suffix_append _ _)),
    List.length_append, Nat.add_sub_cancel, List.take_left]

theorem dropWhile_isBlank_eq_self (visible : ∀ c ∈ cs.head?, isBlank c = false) :
    cs.dropWhile isBlank = cs := by
  cases cs with
  | nil => rfl
  | cons c rest => rw [List.dropWhile_cons_of_neg (by simp [visible c rfl])]

/-- A text without a blank at either end stays as it is. -/
theorem trim_eq_self (first : ∀ c ∈ cs.head?, isBlank c = false)
    (last : ∀ c ∈ cs.getLast?, isBlank c = false) : trim cs = cs := by
  have atBack : cs.reverse.dropWhile isBlank = cs.reverse := by
    apply dropWhile_isBlank_eq_self
    rwa [List.head?_reverse]
  rw [trim, dropWhile_isBlank_eq_self first, atBack, List.reverse_reverse]

/-- Blanks at the ends do not count. -/
theorem trim_between (blankFront : ∀ c ∈ front, isBlank c = true)
    (blankBack : ∀ c ∈ back, isBlank c = true) : trim (front ++ cs ++ back) = trim cs := by
  have atBack (text : List Char) :
      (text ++ back).reverse.dropWhile isBlank = text.reverse.dropWhile isBlank := by
    rw [List.reverse_append, List.dropWhile_append_of_pos]
    simpa using blankBack
  unfold trim
  rw [List.append_assoc, List.dropWhile_append_of_pos blankFront, List.dropWhile_append]
  split
  · rename_i none
    rw [List.isEmpty_iff.mp none, List.dropWhile_eq_nil_iff.mpr blankBack]
  · rw [atBack]

end Ends

end Text

end EntityFlow
