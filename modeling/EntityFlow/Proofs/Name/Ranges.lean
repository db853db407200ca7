import EntityFlow.Proofs.Name.Plurals
import EntityFlow.Proofs.Text.Bytes

/-!
# Where the words of a name stand

`Name.Cuts` says what byte ranges cut a name into its words: they are not empty, in order and without
overlap, start and end between two characters, hold the letters and numbers of the name and nothing
else, and two neighbouring letters or numbers lie in different ranges just where a hump starts or an
acronym ends. The ranges of the words of a name cut it (`Name.cuts_words`), no others do
(`Name.Cuts.unique`), and their bytes are the words (`Name.extract_wordRanges`).

The ranges are found in one pass, too, that keeps where the open word starts and the character that
it has read last (`Name.scanRanges_eq`). The plural of a name replaces what stands in the last range
(`Name.pluralChars_cases`).
-/

namespace EntityFlow.Name

open Text (isAlphanumeric isUppercase isLowercase)

/-! ## Bytes -/

section Bytes

variable {c : Char} {text front back : List Char}

theorem byteLength_append (front back : List Char) :
    byteLength (front ++ back) = byteLength front + byteLength back := by
  induction front with
  | nil => rw [List.nil_append, byteLength, Nat.zero_add]
  | cons c rest ih => rw [List.cons_append, byteLength, byteLength, ih, Nat.add_assoc]

theorem byteLength_singleton (c : Char) : byteLength [c] = c.utf8Size := rfl

theorem byteLength_eq (text : List Char) : byteLength text = (String.ofList text).utf8ByteSize := by
  induction text with
  | nil => rfl
  | cons c rest ih => simp [byteLength, ih]

theorem byteLength_pos (some : text ≠ []) : 0 < byteLength text := by
  obtain ⟨c, rest, rfl⟩ := List.exists_cons_of_ne_nil some
  exact Nat.lt_of_lt_of_le c.utf8Size_pos (Nat.le_add_right _ _)

/-- The bytes of a part at the front end between two characters. -/
theorem isValid_byteLength {name : String} (split : name.toList = front ++ back) :
    String.Pos.Raw.IsValid name ⟨byteLength front⟩ := by
  rw [String.Pos.Raw.isValid_iff_exists_append]
  refine ⟨String.ofList front, String.ofList back, ?_, ?_⟩
  · rw [← String.ofList_append, ← split, String.ofList_toList]
  · rw [byteLength_eq]
    rfl

/-- What ends between two characters has a part of the name in front of it. -/
theorem exists_of_isValid {name : String} {offset : Nat}
    (isValid : String.Pos.Raw.IsValid name ⟨offset⟩) :
    ∃ front back, name.toList = front ++ back ∧ offset = byteLength front := by
  obtain ⟨front, back, rfl, same⟩ := String.Pos.Raw.isValid_iff_exists_append.mp isValid
  refine ⟨front.toList, back.toList, String.toList_append, ?_⟩
  rw [byteLength_eq, String.ofList_toList]
  exact congrArg String.Pos.Raw.byteIdx same

end Bytes

/-! ## The ranges among parts -/

section Parts

variable {offset : Nat} {r : Nat × Nat} {parts : List Segment}

theorem byteLength_joined_cons (part : Segment) (rest : List Segment) :
    byteLength (joined (part :: rest)) = byteLength part.text + byteLength (joined rest) := by
  rw [joined, List.flatMap_cons, byteLength_append]
  rfl

/-- A range is that of a word behind other parts. -/
theorem exists_word_of_mem (member : r ∈ rangesFrom offset parts) :
    ∃ before word after, parts = before ++ .word word :: after ∧
      r = (offset + byteLength (joined before),
        offset + byteLength (joined before) + byteLength word) := by
  induction parts generalizing offset with
  | nil => cases member
  | cons part rest ih =>
      cases part with
      | gap c =>
          obtain ⟨before, word, after, rfl, rfl⟩ := ih member
          refine ⟨.gap c :: before, word, after, rfl, ?_⟩
          rw [byteLength_joined_cons, ← Nat.add_assoc]
          rfl
      | word w =>
          rcases List.mem_cons.mp member with rfl | member
          · exact ⟨[], w, rest, rfl, rfl⟩
          · obtain ⟨before, word, after, rfl, rfl⟩ := ih member
            refine ⟨.word w :: before, word, after, rfl, ?_⟩
            rw [byteLength_joined_cons, ← Nat.add_assoc]
            rfl

theorem start_ge_of_mem (member : r ∈ rangesFrom offset parts) : offset ≤ r.1 := by
  obtain ⟨before, word, after, -, rfl⟩ := exists_word_of_mem member
  exact Nat.le_add_right _ _

theorem pairwise_rangesFrom (offset : Nat) (parts : List Segment) :
    (rangesFrom offset parts).Pairwise fun r s => r.2 ≤ s.1 := by
  induction parts generalizing offset with
  | nil => exact List.Pairwise.nil
  | cons part rest ih =>
      cases part with
      | gap c => exact ih _
      | word w => exact List.pairwise_cons.mpr ⟨fun s member => start_ge_of_mem member, ih _⟩

theorem rangesFrom_append (offset : Nat) (before after : List Segment) :
    rangesFrom offset (before ++ after) =
      rangesFrom offset before ++ rangesFrom (offset + byteLength (joined before)) after := by
  induction before generalizing offset with
  | nil => rfl
  | cons part rest ih =>
      rw [byteLength_joined_cons, ← Nat.add_assoc]
      cases part with
      | gap c => exact ih (offset + c.utf8Size)
      | word w => exact congrArg (_ :: ·) (ih (offset + byteLength w))

/-- Gaps have no ranges. -/
theorem rangesFrom_gaps (offset : Nat) (gaps : ∀ part ∈ parts, part.isWord = false) :
    rangesFrom offset parts = [] := by
  induction parts generalizing offset with
  | nil => rfl
  | cons part rest ih =>
      obtain ⟨isGap, others⟩ := List.forall_mem_cons.mp gaps
      cases part with
      | gap c => exact ih _ others
      | word w => cases isGap

end Parts

/-! ## What a range holds -/

section Holding

variable {c d : Char} {name rest : List Char} {offset i j : Nat} {r : Nat × Nat}
  {ranges : List (Nat × Nat)}

/-- A range holds the byte at an offset. -/
def Holds (r : Nat × Nat) (i : Nat) : Prop := r.1 ≤ i ∧ i < r.2

/-- One of the ranges holds two bytes. -/
def Together (ranges : List (Nat × Nat)) (i j : Nat) : Prop :=
  ∃ r ∈ ranges, Holds r i ∧ Holds r j

/-- Two of the ranges hold one byte each. -/
def Apart (ranges : List (Nat × Nat)) (i j : Nat) : Prop :=
  ∃ r ∈ ranges, ∃ s ∈ ranges, r ≠ s ∧ Holds r i ∧ Holds s j

theorem together_cons :
    Together (r :: ranges) i j ↔ (Holds r i ∧ Holds r j) ∨ Together ranges i j := by
  simp only [Together, List.exists_mem_cons_iff]

/-- What lies behind the first character of a name is held as it is without that character. -/
theorem together_behind (c : Char) (rest : List Char) (behindI : offset + c.utf8Size ≤ i)
    (behindJ : offset + c.utf8Size ≤ j) :
    Together (rangesFrom offset (segments (c :: rest))) i j ↔
      Together (rangesFrom (offset + c.utf8Size) (segments rest)) i j := by
  have parted := parted_segments (c :: rest)
  generalize segments (c :: rest) = parts at parted ⊢
  cases parted with
  | gap other later =>
      rw [Parted.iff_segments.mp later]
      exact Iff.rfl
  | stop letter apart later =>
      -- the word is the character, so it holds nothing behind it
      rw [Parted.iff_segments.mp later, rangesFrom, byteLength_singleton, together_cons]
      refine or_iff_right ?_
      rintro ⟨⟨-, inside⟩, -⟩
      exact absurd inside (Nat.not_lt.mpr behindI)
  | @extend _ d more w parts letter whole later =>
      -- the word is the one behind the character, only that it starts further in front
      have start : offset ≤ offset + c.utf8Size := Nat.le_add_right _ _
      rw [Parted.iff_segments.mp later, rangesFrom, rangesFrom, byteLength, ← Nat.add_assoc,
        together_cons, together_cons]
      simp only [Holds, behindI, behindJ, Nat.le_trans start behindI, Nat.le_trans start behindJ]

/-- What lies behind a part of a name is held as it is without that part. -/
theorem together_append (front : List Char) {rest : List Char}
    (behindI : offset + byteLength front ≤ i) (behindJ : offset + byteLength front ≤ j) :
    Together (rangesFrom offset (segments (front ++ rest))) i j ↔
      Together (rangesFrom (offset + byteLength front) (segments rest)) i j := by
  induction front generalizing offset with
  | nil => exact Iff.rfl
  | cons c front ih =>
      rw [byteLength, ← Nat.add_assoc] at behindI behindJ ⊢
      rw [List.cons_append, together_behind c _ (Nat.le_trans (Nat.le_add_right _ _) behindI)
        (Nat.le_trans (Nat.le_add_right _ _) behindJ)]
      exact ih behindI behindJ

/-- The first character of a name is held if it is a letter or a number. -/
theorem together_first (offset : Nat) (c : Char) (rest : List Char) :
    Together (rangesFrom offset (segments (c :: rest))) offset offset ↔
      isAlphanumeric c = true := by
  have positive := c.utf8Size_pos
  cases letter : isAlphanumeric c with
  | false =>
      rw [segments_cons_gap letter, rangesFrom]
      refine iff_of_false ?_ Bool.false_ne_true
      rintro ⟨r, member, ⟨starts, -⟩, -⟩
      have behind := start_ge_of_mem member
      omega
  | true =>
      obtain ⟨w, others, parts⟩ := exists_segments_cons letter rest
      rw [parts, rangesFrom, byteLength]
      refine iff_of_true ⟨_, List.mem_cons_self, ?_, ?_⟩ rfl
      all_goals
        constructor
        · exact Nat.le_refl _
        · show offset < offset + (c.utf8Size + byteLength w)
          omega

/-- The first two characters of a name are held together if no break stands between them. -/
theorem together_second (offset : Nat) (rest : List Char) (first : isAlphanumeric c = true)
    (second : isAlphanumeric d = true) :
    Together (rangesFrom offset (segments (c :: d :: rest))) offset (offset + c.utf8Size) ↔
      breaksBetween c d rest.head? = false := by
  have positive := c.utf8Size_pos
  obtain ⟨w, others, later⟩ := exists_segments_cons second rest
  have filled := byteLength_pos (List.cons_ne_nil d w)
  rw [segments_cons_word first later]
  cases broken : breaksBetween c d rest.head? with
  | true =>
      rw [if_pos rfl, rangesFrom, byteLength_singleton, together_cons]
      refine iff_of_false ?_ Bool.true_eq_false.mp
      rintro (⟨-, -, inside⟩ | ⟨r, member, ⟨starts, -⟩, -⟩)
      · exact Nat.lt_irrefl _ inside
      · have behind := start_ge_of_mem member
        omega
  | false =>
      rw [if_neg Bool.false_ne_true, rangesFrom, byteLength]
      refine iff_of_true ⟨_, List.mem_cons_self, ?_, ?_⟩ rfl
      · constructor
        · exact Nat.le_refl _
        · show offset < offset + (c.utf8Size + byteLength (d :: w))
          omega
      · constructor
        · exact Nat.le_add_right _ _
        · show offset + c.utf8Size < offset + (c.utf8Size + byteLength (d :: w))
          omega

theorem eq_of_holds {s : Nat × Nat} (ordered : ranges.Pairwise fun r s => r.2 ≤ s.1)
    (first : r ∈ ranges) (second : s ∈ ranges) (holdsR : Holds r i) (holdsS : Holds s i) :
    r = s := by
  obtain ⟨startR, stopR⟩ := holdsR
  obtain ⟨startS, stopS⟩ := holdsS
  induction ordered with
  | nil => cases first
  | cons before _ ih =>
      rcases List.mem_cons.mp first with rfl | laterR
      · rcases List.mem_cons.mp second with rfl | laterS
        · rfl
        · have := before s laterS
          omega
      · rcases List.mem_cons.mp second with rfl | laterS
        · have := before r laterR
          omega
        · exact ih laterR laterS

/-- What ranges in order hold is held together or apart. -/
theorem apart_iff (ordered : ranges.Pairwise fun r s => r.2 ≤ s.1)
    (first : ∃ r ∈ ranges, Holds r i) (second : ∃ r ∈ ranges, Holds r j) :
    Apart ranges i j ↔ ¬ Together ranges i j := by
  obtain ⟨r, memberR, holdsI⟩ := first
  obtain ⟨s, memberS, holdsJ⟩ := second
  constructor
  · rintro ⟨r', memberR', s', memberS', different, holdsI', holdsJ'⟩ ⟨t, memberT, both, both'⟩
    have sameR := eq_of_holds ordered memberR' memberT holdsI' both
    have sameS := eq_of_holds ordered memberS' memberT holdsJ' both'
    exact different (sameR.trans sameS.symm)
  · intro notTogether
    refine ⟨r, memberR, s, memberS, ?_, holdsI, holdsJ⟩
    rintro rfl
    exact notTogether ⟨r, memberR, holdsI, holdsJ⟩

end Holding

/-! ## Cuts -/

/-- How byte ranges cut a name into words. A character stands at the bytes in front of it. -/
structure Cuts (name : String) (ranges : List (Nat × Nat)) : Prop where
  /-- No range is empty. -/
  filled : ∀ r ∈ ranges, r.1 < r.2
  /-- The ranges are in order and do not overlap. -/
  ordered : ranges.Pairwise fun r s => r.2 ≤ s.1
  /-- They start and end between two characters. -/
  boundaries : ∀ r ∈ ranges,
    String.Pos.Raw.IsValid name ⟨r.1⟩ ∧ String.Pos.Raw.IsValid name ⟨r.2⟩
  /-- They hold the letters and numbers, and nothing else. -/
  letters : ∀ before c after, name.toList = before ++ c :: after →
    ((∃ r ∈ ranges, Holds r (byteLength before)) ↔ isAlphanumeric c = true)
  /-- Two neighbours lie apart where a hump starts and where an acronym ends. -/
  breaks : ∀ before c d after, name.toList = before ++ c :: d :: after →
    isAlphanumeric c = true → isAlphanumeric d = true →
    (Apart ranges (byteLength before) (byteLength (before ++ [c])) ↔
      isUppercase d = true ∧ (isLowercase c = true ∨ c.isDigit = true ∨
        isUppercase c = true ∧ ∃ e ∈ after.head?, isLowercase e = true))

section WordRanges

variable {name before word after : List Char} {r : Nat × Nat} {i j : Nat}

theorem breaksBetween_iff {c d : Char} {next : Option Char} : breaksBetween c d next = true ↔
    isUppercase d = true ∧ (isLowercase c = true ∨ c.isDigit = true ∨
      isUppercase c = true ∧ ∃ e ∈ next, isLowercase e = true) := by
  simp only [breaksBetween, Bool.and_eq_true, Bool.or_eq_true, Option.any_eq_true, or_assoc,
    Option.mem_def]

/-- A range of a name is that of one of its words. -/
theorem exists_of_mem_wordRanges (member : r ∈ wordRanges name) :
    ∃ before word after, name = before ++ word ++ after ∧ IsWord word ∧
      r = (byteLength before, byteLength (before ++ word)) := by
  obtain ⟨before, word, after, parts, rfl⟩ := exists_word_of_mem member
  refine ⟨joined before, word, joined after, ?_, ?_, ?_⟩
  · rw [← joined_segments name, parts, joined_append, List.append_assoc]
    rfl
  · apply (parted_segments name).isWord_of_mem
    rw [parts]
    exact List.mem_append_right _ List.mem_cons_self
  · rw [byteLength_append, Nat.zero_add]

/-- What lies behind a part of a name is held by the words behind it. -/
theorem together_wordRanges (front rest : List Char) (behindI : byteLength front ≤ i)
    (behindJ : byteLength front ≤ j) :
    Together (wordRanges (front ++ rest)) i j ↔
      Together (rangesFrom (byteLength front) (segments rest)) i j := by
  rw [← Nat.zero_add (byteLength front)] at behindI behindJ ⊢
  exact together_append front behindI behindJ

theorem cuts_words (name : String) : Cuts name (wordRanges name.toList) := by
  have ordered : (wordRanges name.toList).Pairwise fun r s => r.2 ≤ s.1 :=
    pairwise_rangesFrom _ _
  have letters (before : List Char) (c : Char) (after : List Char)
      (split : name.toList = before ++ c :: after) :
      (∃ r ∈ wordRanges name.toList, Holds r (byteLength before)) ↔ isAlphanumeric c = true := by
    have first := together_first (byteLength before) c after
    rw [← together_wordRanges before _ (Nat.le_refl _) (Nat.le_refl _), ← split] at first
    simpa only [Together, and_self] using first
  refine ⟨?_, ordered, ?_, letters, ?_⟩
  · intro r member
    obtain ⟨before, word, after, -, isWord, rfl⟩ := exists_of_mem_wordRanges member
    show byteLength before < byteLength (before ++ word)
    rw [byteLength_append]
    exact Nat.lt_add_of_pos_right (byteLength_pos isWord.nonempty)
  · intro r member
    obtain ⟨before, word, after, split, -, rfl⟩ := exists_of_mem_wordRanges member
    exact ⟨isValid_byteLength (split.trans (List.append_assoc _ _ _)), isValid_byteLength split⟩
  · intro before c d after split first second
    have heldC := (letters before c (d :: after) split).mpr first
    have heldD := (letters (before ++ [c]) d after (by simp [split])).mpr second
    rw [apart_iff ordered heldC heldD, split, byteLength_append,
      byteLength_singleton, together_wordRanges before _ (Nat.le_refl _) (Nat.le_add_right _ _),
      together_second _ _ first second, Bool.not_eq_false]
    exact breaksBetween_iff

/-- The bytes of the ranges are the words. -/
theorem extract_rangesFrom {name : String} {front : List Char} {parts : List Segment}
    (split : name.toList = front ++ joined parts) :
    (rangesFrom (byteLength front) parts).map (fun r => name.toUTF8.extract r.1 r.2) =
      ((parts.filter Segment.isWord).map Segment.text).map
        fun w => (String.ofList w).toUTF8 := by
  induction parts generalizing front with
  | nil => rfl
  | cons part rest ih =>
      rw [joined, List.flatMap_cons, ← List.append_assoc] at split
      have later := ih split
      rw [byteLength_append] at later
      cases part with
      | gap c => exact later
      | word w =>
          have here := Text.extract_toUTF8 split
          rw [← byteLength_eq, ← byteLength_eq, byteLength_append] at here
          exact congrArg₂ List.cons here later

theorem extract_wordRanges (name : String) :
    (wordRanges name.toList).map (fun r => name.toUTF8.extract r.1 r.2) =
      (words name.toList).map fun w => (String.ofList w).toUTF8 := by
  have split : name.toList = [] ++ joined (segments name.toList) := (joined_segments _).symm
  exact extract_rangesFrom split

end WordRanges

/-! ## Only one list of ranges cuts a name -/

section Uniqueness

variable {name : String} {ranges others : List (Nat × Nat)} {r s : Nat × Nat} {i j : Nat}

/-- A character of a name stands at an offset. -/
def StartsCharacter (name : String) (i : Nat) : Prop :=
  ∃ before c after, name.toList = before ++ c :: after ∧ byteLength before = i

/-- Between two characters one starts unless the name ends there. -/
theorem startsCharacter_of_isValid (first : String.Pos.Raw.IsValid name ⟨i⟩)
    (second : String.Pos.Raw.IsValid name ⟨j⟩) (less : i < j) : StartsCharacter name i := by
  obtain ⟨before, after, split, rfl⟩ := exists_of_isValid first
  obtain ⟨before', after', split', rfl⟩ := exists_of_isValid second
  cases after with
  | nil =>
      have whole : byteLength before = byteLength before' + byteLength after' := by
        rw [← byteLength_append, ← split', split, List.append_nil]
      omega
  | cons c after => exact ⟨before, c, after, split, rfl⟩

/-- Two lists of ranges that cut a name hold the same characters behind one that both hold, as long
as one of them goes on with the same range. -/
theorem Cuts.holds_of_holds (cuts : Cuts name ranges) (cuts' : Cuts name others)
    (memberR : r ∈ ranges) (memberS : s ∈ others) {before text after : List Char} {c : Char}
    (split : name.toList = before ++ text ++ c :: after) (first : Holds r (byteLength before))
    (first' : Holds s (byteLength before)) (last : Holds r (byteLength (before ++ text))) :
    Holds s (byteLength (before ++ text)) := by
  -- along the text, from one neighbour to the next
  induction text using List.reverseRecOn generalizing c after with
  | nil =>
      rw [List.append_nil]
      exact first'
  | append_singleton text b ih =>
      rw [← List.append_assoc] at split last ⊢
      have split' : name.toList = before ++ text ++ b :: c :: after := by simp [split]
      have inner : Holds r (byteLength (before ++ text)) := by
        obtain ⟨starts, -⟩ := first
        obtain ⟨-, stops⟩ := last
        rw [byteLength_append (before ++ text)] at stops
        refine ⟨?_, Nat.lt_of_le_of_lt (Nat.le_add_right _ _) stops⟩
        rw [byteLength_append]
        exact Nat.le_trans starts (Nat.le_add_right _ _)
      have inner' := ih split' inner
      have letterB := (cuts.letters _ b _ split').mp ⟨r, memberR, inner⟩
      have letterC := (cuts.letters _ c _ split).mp ⟨r, memberR, last⟩
      have together : ¬ Apart ranges (byteLength (before ++ text))
          (byteLength (before ++ text ++ [b])) := by
        rw [apart_iff cuts.ordered ⟨r, memberR, inner⟩ ⟨r, memberR, last⟩, not_not]
        exact ⟨r, memberR, inner, last⟩
      rw [cuts.breaks _ b c after split' letterB letterC,
        ← cuts'.breaks _ b c after split' letterB letterC] at together
      -- the other range that holds the last character can only be the same
      obtain ⟨s', memberS', last'⟩ := (cuts'.letters _ c _ split).mpr letterC
      by_contra outside
      apply together
      refine ⟨s, memberS, s', memberS', ?_, inner', last'⟩
      rintro rfl
      exact outside last'

/-- A range of one cut lies in a range of the other. -/
theorem Cuts.exists_holds (cuts : Cuts name ranges) (cuts' : Cuts name others)
    (member : r ∈ ranges) :
    ∃ s ∈ others, ∀ i, StartsCharacter name i → Holds r i → Holds s i := by
  obtain ⟨isValid, isValid'⟩ := cuts.boundaries r member
  have filled := cuts.filled r member
  obtain ⟨front, c, back, split, start⟩ := startsCharacter_of_isValid isValid isValid' filled
  have first : Holds r (byteLength front) := by
    rw [start]
    exact ⟨Nat.le_refl _, filled⟩
  have letter := (cuts.letters front c back split).mp ⟨r, member, first⟩
  obtain ⟨s, memberS, first'⟩ := (cuts'.letters front c back split).mpr letter
  refine ⟨s, memberS, ?_⟩
  rintro i ⟨before, d, after, split', rfl⟩ holds
  have shorter : front <+: before := by
    refine Text.isPrefix_of_utf8ByteSize_le ⟨_, split.symm⟩ ⟨_, split'.symm⟩ ?_
    rw [← byteLength_eq, ← byteLength_eq, start]
    exact holds.1
  obtain ⟨text, rfl⟩ := shorter
  exact cuts.holds_of_holds cuts' member memberS split' first first' holds

theorem Cuts.mem_of_mem (cuts : Cuts name ranges) (cuts' : Cuts name others)
    (member : r ∈ ranges) : r ∈ others := by
  obtain ⟨s, memberS, inside⟩ := cuts.exists_holds cuts' member
  obtain ⟨r', member', inside'⟩ := cuts'.exists_holds cuts memberS
  have filled := cuts.filled r member
  have filled' := cuts'.filled s memberS
  obtain ⟨isValid, isValid'⟩ := cuts.boundaries r member
  obtain ⟨isValidS, isValidS'⟩ := cuts'.boundaries s memberS
  have startR := startsCharacter_of_isValid isValid isValid' filled
  have startS := startsCharacter_of_isValid isValidS isValidS' filled'
  have holdsR : Holds r r.1 := ⟨Nat.le_refl _, filled⟩
  -- the range around that of the other cut is the one at the start
  obtain rfl : r' = r :=
    eq_of_holds cuts.ordered member' member (inside' _ startR (inside _ startR holdsR)) holdsR
  have starts : r'.1 = s.1 :=
    Nat.le_antisymm (inside' _ startS ⟨Nat.le_refl _, filled'⟩).1 (inside _ startR holdsR).1
  have stops : r'.2 = s.2 := by
    rcases Nat.lt_trichotomy r'.2 s.2 with less | same | more
    · -- the character at the end of the shorter range is held by the longer one only
      have start := startsCharacter_of_isValid isValid' isValidS' less
      exact absurd (inside' _ start ⟨by omega, less⟩).2 (Nat.lt_irrefl _)
    · exact same
    · have start := startsCharacter_of_isValid isValidS' isValid' more
      exact absurd (inside _ start ⟨by omega, more⟩).2 (Nat.lt_irrefl _)
  rw [Prod.ext starts stops]
  exact memberS

/-- Only one list of ranges cuts a name. -/
theorem Cuts.unique (cuts : Cuts name ranges) (cuts' : Cuts name others) : ranges = others := by
  have nodup {rs : List (Nat × Nat)} (cuts : Cuts name rs) : rs.Nodup := by
    refine cuts.ordered.imp_of_mem ?_
    rintro r s memberR - before rfl
    have := cuts.filled r memberR
    omega
  have perm : ranges.Perm others :=
    (List.perm_ext_iff_of_nodup (nodup cuts) (nodup cuts')).mpr fun r =>
      ⟨cuts.mem_of_mem cuts', cuts'.mem_of_mem cuts⟩
  refine perm.eq_of_pairwise ?_ cuts.ordered cuts'.ordered
  intro r s memberR memberS before after
  have := cuts.filled r memberR
  have := cuts'.filled s memberS
  omega

end Uniqueness

/-! ## One pass -/

/-- The ranges in one pass over a name from an offset on. What is kept of the text in front is the
open word, if there is one: where it starts, and its last character so far. -/
def scanRanges (offset : Nat) : Option (Nat × Char) → List Char → List (Nat × Nat)
  | none, [] => []
  | some (start, _), [] => [(start, offset)]
  | none, c :: rest =>
      if isAlphanumeric c then scanRanges (offset + c.utf8Size) (some (offset, c)) rest
      else scanRanges (offset + c.utf8Size) none rest
  | some (start, before), c :: rest =>
      if isAlphanumeric c then
        if breaksBetween before c rest.head? then
          (start, offset) :: scanRanges (offset + c.utf8Size) (some (offset, c)) rest
        else scanRanges (offset + c.utf8Size) (some (start, c)) rest
      else (start, offset) :: scanRanges (offset + c.utf8Size) none rest

/-- What the pass finds in the rest of a name: behind no word the ranges of the rest, and behind a
character of a word the range up to its end and those behind it. -/
theorem scanRanges_rest (rest : List Char) :
    (∀ offset, scanRanges offset none rest = rangesFrom offset (segments rest)) ∧
      ∀ offset start c w parts, isAlphanumeric c = true →
        segments (c :: rest) = .word (c :: w) :: parts →
        scanRanges offset (some (start, c)) rest =
          (start, offset + byteLength w) :: rangesFrom (offset + byteLength w) parts := by
  induction rest with
  | nil =>
      refine ⟨fun offset => rfl, ?_⟩
      intro offset start c w parts letter found
      have alone : segments [c] = [.word [c]] := segments_cons_end letter nofun
      rw [alone] at found
      cases found
      rfl
  | cons d more ih =>
      obtain ⟨closed, opened⟩ := ih
      constructor
      · intro offset
        cases letter : isAlphanumeric d with
        | false =>
            rw [scanRanges, if_neg (by simp [letter]), closed, segments_cons_gap letter]
            rfl
        | true =>
            obtain ⟨w, others, found⟩ := exists_segments_cons letter more
            rw [scanRanges, if_pos letter, opened _ _ _ _ _ letter found, found, rangesFrom,
              byteLength, Nat.add_assoc]
      · intro offset start c w parts letter found
        cases next : isAlphanumeric d with
        | false =>
            -- the word ends in front of a gap
            rw [segments_cons_end letter (by simpa using next), segments_cons_gap next] at found
            cases found
            rw [scanRanges, if_neg (by simp [next]), closed]
            rfl
        | true =>
            obtain ⟨v, others, later⟩ := exists_segments_cons next more
            rw [segments_cons_word letter later] at found
            cases broken : breaksBetween c d more.head? with
            | true =>
                -- the word ends, and the next one starts at once
                rw [broken, if_pos rfl] at found
                cases found
                rw [scanRanges, if_pos next, if_pos broken, opened _ _ _ _ _ next later,
                  byteLength, Nat.add_zero, rangesFrom, byteLength, Nat.add_assoc]
            | false =>
                rw [broken, if_neg Bool.false_ne_true] at found
                cases found
                rw [scanRanges, if_pos next, if_neg (by simp [broken]),
                  opened _ _ _ _ _ next later, byteLength, Nat.add_assoc]

/-- One pass finds the ranges of a name. -/
theorem scanRanges_eq (name : List Char) : scanRanges 0 none name = wordRanges name :=
  (scanRanges_rest name).1 0

/-! ## The last range -/

section LastRange

variable {name front word back : List Char} {parts : List Segment}

theorem LastWord.getLast?_wordRanges (last : LastWord name front word back) :
    (wordRanges name).getLast? = some (byteLength front, byteLength (front ++ word)) := by
  obtain ⟨before, after, parts, gaps, rfl, rfl⟩ := last
  rw [wordRanges, parts, rangesFrom_append, rangesFrom, rangesFrom_gaps _ gaps,
    List.getLast?_concat, byteLength_append, Nat.zero_add]

theorem changeLastWord_gaps {change : List Char → List Char}
    (gaps : ∀ part ∈ parts, part.isWord = false) : changeLastWord change parts = parts := by
  induction parts with
  | nil => rfl
  | cons part rest ih =>
      obtain ⟨isGap, others⟩ := List.forall_mem_cons.mp gaps
      cases part with
      | gap c => rw [changeLastWord, ih others]
      | word w => cases isGap

/-- The plural has another word in the place of the last range, and a name without ranges is its own
plural. -/
theorem pluralChars_cases (name : List Char) :
    wordRanges name = [] ∧ pluralChars name = name ∨
      ∃ front word back, name = front ++ word ++ back ∧
        (wordRanges name).getLast? = some (byteLength front, byteLength (front ++ word)) ∧
        pluralChars name = front ++ pluralWord word ++ back := by
  by_cases none : words name = []
  · have gaps : ∀ part ∈ segments name, part.isWord = false := by
      intro part member
      cases part with
      | gap c => rfl
      | word w =>
          have among := mem_words.mpr member
          rw [none] at among
          cases among
    refine .inl ⟨rangesFrom_gaps 0 gaps, ?_⟩
    rw [pluralChars, changeLastWord_gaps gaps, joined_segments]
  · obtain ⟨front, word, back, last⟩ := exists_lastWord none
    exact .inr ⟨front, word, back, last.name_eq, last.getLast?_wordRanges, last.pluralChars_eq⟩

end LastRange

/-! ## The words of a name -/

/-- **The ranges of the words cut a name.** They are not empty, in order and without overlap, start
and end between two characters, and hold just the letters and numbers; two neighbours of these lie
in different ranges exactly if the second is a capital and the first is a small letter or a digit,
or a capital with a small letter behind the two. No other ranges are so. The bytes of the ranges are
the words, which are not empty and have letters and numbers only. -/
theorem wordRanges_cut (name : String) :
    Cuts name (wordRanges name.toList) ∧
      (∀ ranges, Cuts name ranges → ranges = wordRanges name.toList) ∧
      (wordRanges name.toList).map (fun r => name.toUTF8.extract r.1 r.2) =
        (words name.toList).map (fun w => (String.ofList w).toUTF8) ∧
      ∀ w ∈ words name.toList, w ≠ [] ∧ ∀ c ∈ w, isAlphanumeric c = true := by
  have cuts := cuts_words name
  refine ⟨cuts, fun ranges cuts' => cuts'.unique cuts, extract_wordRanges name, ?_⟩
  intro w member
  have isWord := isWord_of_mem_words member
  exact ⟨isWord.nonempty, isWord.letters⟩

/-- An acronym, humps behind a small letter and behind a digit, letters of two bytes and a gap. -/
theorem wordRanges_cut_accents :
    let name := "HTTPServerÉté2Go_x"
    let ranges := [(0, 4), (4, 10), (10, 16), (16, 18), (19, 20)]
    wordRanges name.toList = ranges ∧ Cuts name ranges ∧
      ∀ others, Cuts name others → others = ranges := by
  intro name ranges
  have found : wordRanges name.toList = ranges := by decide +kernel
  obtain ⟨cuts, unique, -⟩ := wordRanges_cut name
  rw [found] at cuts unique
  exact ⟨found, cuts, unique⟩

end EntityFlow.Name
