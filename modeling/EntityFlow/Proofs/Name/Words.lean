import EntityFlow.Name.Words
import EntityFlow.Proofs.Text.Lines

/-!
# How names are cut into words

`Name.Parted` says by rules what the parts of a name are: a character that is no letter and no
number is a gap of its own, and a letter or number either starts a word or continues the one behind
it, as the break between the two says. Every name has exactly one list of parts
(`Name.Parted.iff_segments`), which joined are the name (`Name.joined_segments`).

A word is a text of letters and numbers that is not empty and has no break in it
(`Name.Parted.isWord_of_mem`), and a text of small letters in front of a gap is a word as a whole
(`Name.IsSmall.parted`).
-/

namespace EntityFlow.Name

open Text (isAlphanumeric isUppercase isLowercase)

/-! ## The rules -/

/-- What the parts of a name are. -/
inductive Parted : List Char → List Segment → Prop
  | nil : Parted [] []
  /-- A gap is a character of its own. -/
  | gap {c : Char} {rest : List Char} {parts : List Segment} (other : isAlphanumeric c = false)
      (later : Parted rest parts) : Parted (c :: rest) (.gap c :: parts)
  /-- A word ends behind a character if none follows that belongs to it. -/
  | stop {c : Char} {rest : List Char} {parts : List Segment} (letter : isAlphanumeric c = true)
      (apart : ∀ d more, rest = d :: more → isAlphanumeric d = true →
        breaksBetween c d more.head? = true)
      (later : Parted rest parts) : Parted (c :: rest) (.word [c] :: parts)
  /-- A word goes on without a break. -/
  | extend {c d : Char} {more w : List Char} {parts : List Segment}
      (letter : isAlphanumeric c = true) (whole : breaksBetween c d more.head? = false)
      (later : Parted (d :: more) (.word w :: parts)) :
      Parted (c :: d :: more) (.word (c :: w) :: parts)

section Rules

variable {c d : Char} {name rest more w : List Char} {parts others : List Segment}

theorem segments_cons_gap (other : isAlphanumeric c = false) :
    segments (c :: rest) = .gap c :: segments rest := by
  simp [segments, other]

theorem segments_cons_word (letter : isAlphanumeric c = true)
    (later : segments (d :: more) = .word w :: others) :
    segments (c :: d :: more) =
      if breaksBetween c d more.head? then .word [c] :: .word w :: others
      else .word (c :: w) :: others := by
  rw [segments.eq_def]
  simp only [letter, if_true, later]

theorem segments_cons_end (letter : isAlphanumeric c = true)
    (stops : ∀ d ∈ rest.head?, isAlphanumeric d = false) :
    segments (c :: rest) = .word [c] :: segments rest := by
  cases rest with
  | nil => simp [segments, letter]
  | cons d more =>
      rw [segments.eq_def]
      simp only [letter, if_true, segments_cons_gap (stops d rfl)]

/-- What stands behind a character: no letter and no number, or one of these. -/
theorem next_cases (rest : List Char) : (∀ d ∈ rest.head?, isAlphanumeric d = false) ∨
    ∃ d more, rest = d :: more ∧ isAlphanumeric d = true := by
  cases rest with
  | nil => exact .inl nofun
  | cons d more =>
      cases next : isAlphanumeric d with
      | false => exact .inl (by simpa using next)
      | true => exact .inr ⟨d, more, rfl, next⟩

/-- Letters and numbers start a word. -/
theorem exists_segments_cons (letter : isAlphanumeric c = true) (rest : List Char) :
    ∃ w others, segments (c :: rest) = .word (c :: w) :: others := by
  induction rest generalizing c with
  | nil => exact ⟨[], [], segments_cons_end letter nofun⟩
  | cons d more ih =>
      cases next : isAlphanumeric d with
      | false => exact ⟨[], _, segments_cons_end letter (by simpa using next)⟩
      | true =>
          obtain ⟨w, others, later⟩ := ih next
          rw [segments_cons_word letter later]
          split
          · exact ⟨[], _, rfl⟩
          · exact ⟨d :: w, others, rfl⟩

theorem parted_segments (name : List Char) : Parted name (segments name) := by
  induction name with
  | nil => exact .nil
  | cons c rest ih =>
      cases letter : isAlphanumeric c with
      | false =>
          rw [segments_cons_gap letter]
          exact .gap letter ih
      | true =>
          rcases next_cases rest with stops | ⟨d, more, rfl, isNext⟩
          · rw [segments_cons_end letter stops]
            refine .stop letter ?_ ih
            rintro d more rfl isNext
            rw [stops d rfl] at isNext
            cases isNext
          · -- a letter or number follows, so a word stands behind the character
            obtain ⟨w, others, later⟩ := exists_segments_cons isNext more
            rw [later] at ih
            rw [segments_cons_word letter later]
            split
            · rename_i breaks
              refine .stop letter ?_ ih
              rintro e tail equal -
              obtain ⟨rfl, rfl⟩ := List.cons.inj equal
              exact breaks
            · rename_i whole
              exact .extend letter (Bool.eq_false_iff.mpr whole) ih

/-- The parts of a name are those that the rules allow. -/
theorem Parted.iff_segments : Parted name parts ↔ segments name = parts := by
  constructor
  · intro parted
    induction parted with
    | nil => rfl
    | gap other later ih => rw [segments_cons_gap other, ih]
    | @stop c rest parts letter apart later ih =>
        rcases next_cases rest with stops | ⟨d, more, rfl, isNext⟩
        · rw [segments_cons_end letter stops, ih]
        · obtain ⟨w, others, known⟩ := exists_segments_cons isNext more
          rw [segments_cons_word letter known, if_pos (apart d more rfl isNext), ← known, ih]
    | extend letter whole later ih =>
        rw [segments_cons_word letter ih, if_neg (by simp [whole])]
  · rintro rfl
    exact parted_segments name

end Rules

/-! ## The parts of a name -/

section Parts

variable {c d : Char} {name rest more w : List Char} {parts others : List Segment}

/-- The parts of a name are the name again. -/
theorem Parted.joined_eq (parted : Parted name parts) : joined parts = name := by
  induction parted with
  | nil => rfl
  | gap other later ih => exact congrArg (_ :: ·) ih
  | stop letter apart later ih => exact congrArg (_ :: ·) ih
  | extend letter whole later ih => exact congrArg (_ :: ·) ih

theorem joined_segments (name : List Char) : joined (segments name) = name :=
  (parted_segments name).joined_eq

/-- A word at the front starts with the first character of the name. -/
theorem Parted.exists_tail (parted : Parted (c :: rest) (.word w :: parts)) :
    ∃ tail, w = c :: tail ∧ rest = tail ++ joined parts := by
  have whole := parted.joined_eq
  cases parted with
  | stop => exact ⟨[], rfl, (List.cons.inj whole).2.symm⟩
  | extend => exact ⟨_, rfl, (List.cons.inj whole).2.symm⟩

/-- No break stands between two characters of a text. -/
def Unbroken : List Char → Prop
  | c :: d :: rest => breaksBetween c d rest.head? = false ∧ Unbroken (d :: rest)
  | _ => True

/-- A text that is a word. -/
structure IsWord (w : List Char) : Prop where
  nonempty : w ≠ []
  letters : ∀ c ∈ w, isAlphanumeric c = true
  unbroken : Unbroken w

/-- A break that is there without a character behind it is there with one. -/
theorem breaksBetween_none {next : Option Char} (whole : breaksBetween c d next = false) :
    breaksBetween c d none = false := by
  simp only [breaksBetween, Bool.and_eq_false_iff, Bool.or_eq_false_iff] at whole ⊢
  exact whole.imp_right fun none => ⟨none.1, .inr rfl⟩

theorem Parted.isWord_of_mem (parted : Parted name parts) (member : .word w ∈ parts) :
    IsWord w := by
  induction parted generalizing w with
  | nil => cases member
  | gap other later ih =>
      rcases List.mem_cons.mp member with equal | member
      · cases equal
      · exact ih member
  | stop letter apart later ih =>
      rcases List.mem_cons.mp member with equal | member
      · cases equal
        exact ⟨List.cons_ne_nil _ _, by simpa using letter, trivial⟩
      · exact ih member
  | @extend c d more v parts letter whole later ih =>
      rcases List.mem_cons.mp member with equal | member
      · cases equal
        have inner := ih List.mem_cons_self
        obtain ⟨tail, rfl, split⟩ := later.exists_tail
        refine ⟨List.cons_ne_nil _ _, List.forall_mem_cons.mpr ⟨letter, inner.letters⟩, ?_,
          inner.unbroken⟩
        -- the character behind the two is that of the name unless the word ends with them
        cases tail with
        | nil => exact breaksBetween_none whole
        | cons e tail =>
            rw [split] at whole
            exact whole
      · exact ih (List.mem_cons_of_mem _ member)

theorem mem_words : w ∈ words name ↔ .word w ∈ segments name := by
  rw [words, List.mem_map]
  constructor
  · rintro ⟨part, member, rfl⟩
    obtain ⟨among, isWord⟩ := List.mem_filter.mp member
    cases part with
    | word v => exact among
    | gap c => cases isWord
  · intro member
    exact ⟨.word w, List.mem_filter.mpr ⟨member, rfl⟩, rfl⟩

theorem isWord_of_mem_words (member : w ∈ words name) : IsWord w :=
  (parted_segments name).isWord_of_mem (mem_words.mp member)

/-- The characters of words are characters of the name. -/
theorem mem_of_mem_words (member : w ∈ words name) (inside : c ∈ w) : c ∈ name := by
  rw [← joined_segments name, joined]
  exact List.mem_flatMap.mpr ⟨.word w, mem_words.mp member, inside⟩

end Parts

/-! ## Words without capitals -/

section Small

variable {s : Char} {w rest : List Char} {parts : List Segment} {ws : List (List Char)}

/-- A text of letters and numbers without capitals. -/
structure IsSmall (w : List Char) : Prop where
  nonempty : w ≠ []
  letters : ∀ c ∈ w, isAlphanumeric c = true
  small : ∀ c ∈ w, isUppercase c = false

theorem IsSmall.parted (isSmall : IsSmall w) (stops : ∀ d ∈ rest.head?, isAlphanumeric d = false)
    (later : Parted rest parts) : Parted (w ++ rest) (.word w :: parts) := by
  obtain ⟨nonempty, letters, small⟩ := isSmall
  induction w with
  | nil => exact absurd rfl nonempty
  | cons c tail ih =>
      obtain ⟨letter, others⟩ := List.forall_mem_cons.mp letters
      cases tail with
      | nil =>
          refine .stop letter ?_ later
          rintro d more rfl next
          rw [stops d rfl] at next
          cases next
      | cons d tail =>
          obtain ⟨-, smallOthers⟩ := List.forall_mem_cons.mp small
          have whole : breaksBetween c d (tail ++ rest).head? = false := by
            rw [breaksBetween, smallOthers d List.mem_cons_self, Bool.false_and]
          exact .extend letter whole (ih (List.cons_ne_nil _ _) others smallOthers)

theorem words_small (isSmall : IsSmall w) : words w = [w] := by
  have parted : Parted (w ++ []) [.word w] := isSmall.parted nofun .nil
  rw [List.append_nil] at parted
  rw [words, Parted.iff_segments.mp parted]
  rfl

theorem words_append_cons (isSmall : IsSmall w) (gap : isAlphanumeric s = false) :
    words (w ++ s :: rest) = w :: words rest := by
  have parted : Parted (w ++ s :: rest) (.word w :: .gap s :: segments rest) :=
    isSmall.parted (by simpa using gap) (.gap gap (parted_segments rest))
  rw [words, Parted.iff_segments.mp parted]
  rfl

/-- Words without capitals that are joined with a gap are the words of the name. -/
theorem words_join (gap : isAlphanumeric s = false) (each : ∀ w ∈ ws, IsSmall w) :
    words (Text.join [s] ws) = ws := by
  induction ws with
  | nil => rfl
  | cons w rest ih =>
      obtain ⟨first, others⟩ := List.forall_mem_cons.mp each
      cases rest with
      | nil =>
          rw [Text.join, List.intercalate_singleton]
          exact words_small first
      | cons v rest =>
          rw [Text.join_cons_of_ne_nil (List.cons_ne_nil _ _), List.append_assoc,
            List.singleton_append, words_append_cons first gap, ih others]

end Small

end EntityFlow.Name
