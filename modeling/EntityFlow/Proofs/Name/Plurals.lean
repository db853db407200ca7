import EntityFlow.Proofs.Name.Casing

/-!
# The plural of a name

The plural of a name is the name with its last word changed (`Name.LastWord.pluralChars_eq`). Of a
word that has no plural of its own only an ending is replaced (`Name.replaced`), up to the case of
its letters: these are lost and made up again from the capitals of the word, and a word that has
small letters is thought to have one capital at most, its initial. In a word without a break that is
so unless it starts with two capitals, as `AB1c` does (`Name.MixedCapitals`), and so just these
words do not keep their letters (`Name.plural_keeps_iff`).
-/

namespace EntityFlow.Name

open Text (Ascii isAscii isAlphanumeric isUppercase isLowercase capitalize)

/-! ## The last word -/

section LastWords

variable {change : List Char → List Char} {name front word back : List Char}
  {before after parts : List Segment}

/-- The last word of a name, between what stands in front of it and what stands behind it. -/
def LastWord (name front word back : List Char) : Prop :=
  ∃ before after, segments name = before ++ .word word :: after ∧
    (∀ part ∈ after, part.isWord = false) ∧ joined before = front ∧ joined after = back

theorem exists_last_part (some : parts.any Segment.isWord = true) :
    ∃ before word after, parts = before ++ .word word :: after ∧
      ∀ part ∈ after, part.isWord = false := by
  induction parts with
  | nil => cases some
  | cons part rest ih =>
      -- the first part counts only if no word stands behind it
      by_cases later : rest.any Segment.isWord = true
      · obtain ⟨before, word, after, rfl, others⟩ := ih later
        exact ⟨part :: before, word, after, rfl, others⟩
      · have others : ∀ part ∈ rest, part.isWord = false := by simpa using later
        cases part with
        | word w => exact ⟨[], w, rest, rfl, others⟩
        | gap c => exact absurd some later

theorem exists_lastWord (some : words name ≠ []) :
    ∃ front word back, LastWord name front word back := by
  have isWord : (segments name).any Segment.isWord = true := by
    obtain ⟨w, member⟩ := List.exists_mem_of_ne_nil _ some
    exact List.any_eq_true.mpr ⟨.word w, mem_words.mp member, rfl⟩
  obtain ⟨before, word, after, parts, others⟩ := exists_last_part isWord
  exact ⟨_, word, _, before, after, parts, others, rfl, rfl⟩

theorem changeLastWord_append (others : ∀ part ∈ after, part.isWord = false) :
    changeLastWord change (before ++ .word word :: after) =
      before ++ .word (change word) :: after := by
  induction before with
  | nil =>
      have none : ¬ after.any Segment.isWord = true := by simpa using others
      exact if_neg none
  | cons part rest ih =>
      cases part with
      | gap c => exact congrArg (_ :: ·) ih
      | word w =>
          have later : (rest ++ .word word :: after).any Segment.isWord = true := by
            simp [Segment.isWord]
          rw [List.cons_append, changeLastWord, if_pos later, ih]
          rfl

theorem joined_append (before after : List Segment) :
    joined (before ++ after) = joined before ++ joined after :=
  List.flatMap_append

theorem LastWord.name_eq (last : LastWord name front word back) : name = front ++ word ++ back := by
  obtain ⟨before, after, parts, -, rfl, rfl⟩ := last
  rw [← joined_segments name, parts, joined_append, List.append_assoc]
  rfl

/-- What stands in front of the last word and behind it stays as it is. -/
theorem LastWord.pluralChars_eq (last : LastWord name front word back) :
    pluralChars name = front ++ pluralWord word ++ back := by
  obtain ⟨before, after, parts, others, rfl, rfl⟩ := last
  rw [pluralChars, parts, changeLastWord_append others, joined_append, List.append_assoc]
  rfl

theorem LastWord.mem_words (last : LastWord name front word back) : word ∈ words name := by
  obtain ⟨before, after, parts, -⟩ := last
  rw [Name.mem_words, parts]
  simp

end LastWords

/-! ## Endings -/

section Endings

variable {c : Char} {small : List Char}

/-- The end of a word in small letters in place of which its plural has something else. -/
def replaced (small : List Char) : List Char :=
  if uncountable.any (·.toList == small) then []
  else match ending? small with
    | some (ending, _) => ending.toList
    | none => if small.getLast? = some 'y' ∧ yieldsIes small.dropLast then ['y'] else []

/-- A word up to the end that its plural replaces. -/
def kept (word : List Char) : List Char :=
  word.take (word.length - (replaced (Text.lower word)).length)

theorem ending?_eq_some {entry : String × String} (found : ending? small = some entry) :
    entry ∈ endings ∧ entry.1.toList <:+ small := by
  unfold ending? at found
  have fits := List.find?_some found
  exact ⟨List.mem_of_find?_eq_some found, List.isSuffixOf_iff_suffix.mp fits⟩

theorem replaced_suffix (small : List Char) : replaced small <:+ small := by
  unfold replaced
  split
  · exact List.nil_suffix
  · split
    · rename_i found
      exact (ending?_eq_some found).2
    · split
      · rename_i ends
        obtain ⟨stem, rfl⟩ := List.getLast?_eq_some_iff.mp ends.1
        exact List.suffix_append _ _
      · exact List.nil_suffix

/-- No digit is replaced. -/
theorem isDigit_of_mem_replaced (member : c ∈ replaced small) : c.isDigit = false := by
  have letters : endings.all fun entry => entry.1.toList.all fun c => !c.isDigit := by
    decide +kernel
  unfold replaced at member
  split at member
  · cases member
  · split at member
    · rename_i found
      have entry := List.all_eq_true.mp letters _ (ending?_eq_some found).1
      simpa using List.all_eq_true.mp entry c member
    · split at member
      · rw [List.mem_singleton.mp member]
        rfl
      · cases member

/-- The plural of a word that no table of whole words has: an ending is replaced. -/
theorem countablePlural_eq (countable : ¬ uncountable.any (·.toList == small) = true)
    (regular : ∀ entry ∈ irregular, entry.1.toList ≠ small) :
    ∃ added, Ascii added ∧ countablePlural small =
      small.take (small.length - (replaced small).length) ++ added := by
  have ascii : endings.all fun entry => entry.2.toList.all isAscii := by decide +kernel
  have none : irregular.find? (fun entry => entry.1.toList == small) = none := by
    simpa using regular
  unfold countablePlural
  rw [none, replaced, if_neg countable]
  cases found : ending? small with
  | some entry =>
      obtain ⟨ending, replacement⟩ := entry
      have known := List.all_eq_true.mp ascii _ (ending?_eq_some found).1
      exact ⟨replacement.toList, List.all_eq_true.mp known, rfl⟩
  | none =>
      -- `ies` in place of a `y`, nothing behind an `s`, and `s` behind anything else
      simp only [regularPlural]
      split
      · refine ⟨['i', 'e', 's'], List.all_eq_true.mp rfl, ?_⟩
        rw [List.dropLast_eq_take]
        rfl
      · split
        · exact ⟨[], nofun, by simp⟩
        · exact ⟨['s'], List.all_eq_true.mp rfl, by simp⟩

/-- A plural starts like the word. -/
theorem head?_countablePlural (some : small ≠ []) :
    (countablePlural small).head? = small.head? := by
  have whole : irregular.all fun entry => entry.2.toList.head? == entry.1.toList.head? := by
    decide +kernel
  have ends : endings.all fun entry => entry.2.toList.head? == entry.1.toList.head? := by
    decide +kernel
  unfold countablePlural
  split
  · rename_i entry found
    have same := List.all_eq_true.mp whole _ (List.mem_of_find?_eq_some found)
    have word := List.find?_some found
    rw [beq_iff_eq] at same word
    rw [same, word]
  · split
    · rename_i found
      -- if nothing is left in front of the ending, what takes its place starts like it
      obtain ⟨member, front, rfl⟩ := ending?_eq_some found
      have same := List.all_eq_true.mp ends _ member
      rw [beq_iff_eq] at same
      rw [List.length_append, Nat.add_sub_cancel, List.take_left, List.head?_append,
        List.head?_append, same]
    · unfold regularPlural
      split
      · rename_i ies
        obtain ⟨stem, rfl⟩ := List.getLast?_eq_some_iff.mp ies.1
        rw [List.dropLast_concat] at ies ⊢
        -- a `y` alone stays
        cases stem with
        | nil => exact absurd ies.2 (by decide)
        | cons c stem => rfl
      · split
        · rfl
        · rw [List.head?_append_of_ne_nil _ some]

end Endings

/-! ## Capitals in a word -/

section Capitals

variable {c d : Char} {rest : List Char}

/-- A word that starts with two capitals and has a small letter. -/
def MixedCapitals (word : List Char) : Prop :=
  ∃ c d rest, word = c :: d :: rest ∧ isUppercase c = true ∧ isUppercase d = true ∧
    ∃ e ∈ rest, isLowercase e = true

theorem IsWord.of_cons (isWord : IsWord (c :: d :: rest)) : IsWord (d :: rest) :=
  ⟨List.cons_ne_nil _ _, fun e member => isWord.letters e (List.mem_cons_of_mem _ member),
    isWord.unbroken.2⟩

/-- A capital in a word stands behind a capital. -/
theorem IsWord.isUppercase_first (isWord : IsWord (c :: d :: rest)) (ascii : isAscii c = true)
    (capital : isUppercase d = true) : isUppercase c = true := by
  have whole := isWord.unbroken.1
  rw [breaksBetween, capital, Bool.true_and, Bool.or_eq_false_iff, Bool.or_eq_false_iff] at whole
  -- behind a small letter or a digit a capital would start the next word
  by_contra noCapital
  have digit := Text.isDigit_of_uncased ascii (isWord.letters c List.mem_cons_self)
    (Bool.eq_false_iff.mpr noCapital) whole.1.1
  rw [whole.1.2] at digit
  cases digit

/-- Two capitals in a word stand in front of no small letter. -/
theorem IsWord.isLowercase_third {e : Char} (isWord : IsWord (c :: d :: e :: rest))
    (first : isUppercase c = true) (second : isUppercase d = true) : isLowercase e = false := by
  have whole := isWord.unbroken.1
  rw [breaksBetween, second, Bool.true_and, Bool.or_eq_false_iff, first, Bool.true_and] at whole
  exact whole.2

theorem IsWord.isUppercase_tail (isWord : IsWord (c :: rest)) (ascii : Ascii (c :: rest))
    (small : isUppercase c = false) : ∀ d ∈ rest, isUppercase d = false := by
  induction rest generalizing c with
  | nil => nofun
  | cons d rest ih =>
      obtain ⟨first, others⟩ := List.forall_mem_cons.mp ascii
      have next : isUppercase d = false := by
        by_contra capital
        have before := isWord.isUppercase_first first (Bool.of_not_eq_false capital)
        rw [small] at before
        cases before
      exact List.forall_mem_cons.mpr ⟨next, ih isWord.of_cons others next⟩

/-- Between two capitals and a small letter of one word stands a digit. -/
theorem IsWord.exists_digit (isWord : IsWord (c :: d :: rest)) (ascii : Ascii rest)
    (first : isUppercase c = true) (second : isUppercase d = true)
    (small : ∃ e ∈ rest, isLowercase e = true) : ∃ g ∈ rest, g.isDigit = true := by
  induction rest generalizing c d with
  | nil => exact absurd small (by simp)
  | cons e rest ih =>
      obtain ⟨asciiNext, others⟩ := List.forall_mem_cons.mp ascii
      have notSmall := isWord.isLowercase_third first second
      -- either the capitals end here, or they go on and `e` is the second of two
      cases third : isUppercase e with
      | false =>
          have letter := isWord.letters e (by simp)
          exact ⟨e, List.mem_cons_self, Text.isDigit_of_uncased asciiNext letter third notSmall⟩
      | true =>
          have later : ∃ e ∈ rest, isLowercase e = true := by simpa [notSmall] using small
          obtain ⟨g, member, digit⟩ := ih isWord.of_cons others second third later
          exact ⟨g, List.mem_cons_of_mem _ member, digit⟩

/-- The digit stays in the small form of the word. -/
theorem IsWord.exists_digit_lower (isWord : IsWord (c :: d :: rest)) (ascii : Ascii rest)
    (first : isUppercase c = true) (second : isUppercase d = true)
    (small : ∃ e ∈ rest, isLowercase e = true) : ∃ g ∈ Text.lower rest, g.isDigit = true := by
  obtain ⟨g, member, digit⟩ := isWord.exists_digit ascii first second small
  refine ⟨g.toLower, ?_, ?_⟩
  · rw [Text.lower_of_ascii ascii]
    exact List.mem_map_of_mem member
  · rw [(Text.forms_of_ascii (ascii g member)).2.2.1, digit]

/-- A word with small letters has no capital but its initial, unless its capitals are mixed. -/
theorem IsWord.isUppercase_rest (isWord : IsWord (c :: rest)) (ascii : Ascii (c :: rest))
    (plain : ¬ MixedCapitals (c :: rest)) (capital : isUppercase c = true)
    (small : ∃ e ∈ rest, isLowercase e = true) : ∀ d ∈ rest, isUppercase d = false := by
  obtain ⟨-, others⟩ := List.forall_mem_cons.mp ascii
  cases rest with
  | nil => nofun
  | cons d rest =>
      have next : isUppercase d = false := by
        by_contra second
        rw [Bool.not_eq_false] at second
        have notSmall := Text.not_isLowercase_of_isUppercase (others d List.mem_cons_self) second
        exact plain ⟨c, d, rest, rfl, capital, second, by simpa [notSmall] using small⟩
      exact List.forall_mem_cons.mpr ⟨next, isWord.of_cons.isUppercase_tail others next⟩

end Capitals

/-! ## Case -/

section Case

variable {c d : Char} {word rest front added back pattern cs : List Char}

theorem withCaseOf_capitals (capital : isUppercase c = true)
    (none : ∀ d ∈ rest, isLowercase d = false) (ascii : isAscii c = true) :
    withCaseOf (c :: rest) cs = Text.upper cs := by
  have noSmall : (c :: rest).any isLowercase = false := by
    rw [List.any_eq_false]
    simpa [Text.not_isLowercase_of_isUppercase ascii capital] using none
  rw [withCaseOf, noSmall, List.any_cons, capital]
  rfl

theorem withCaseOf_initial (capital : isUppercase c = true)
    (small : ∃ d ∈ rest, isLowercase d = true) : withCaseOf (c :: rest) cs = capitalize cs := by
  have someSmall : (c :: rest).any isLowercase = true := by
    rw [List.any_cons, List.any_eq_true.mpr small, Bool.or_true]
  rw [withCaseOf, someSmall]
  exact if_pos capital

theorem withCaseOf_small (none : ∀ d ∈ pattern, isUppercase d = false) :
    withCaseOf pattern cs = cs := by
  have noCapital : pattern.any isUppercase = false := by simpa using none
  have noInitial : pattern.head?.any isUppercase = false := by
    cases pattern with
    | nil => rfl
    | cons c rest => exact none c List.mem_cons_self
  rw [withCaseOf, noCapital, noInitial, Bool.and_false]
  rfl

theorem lower_withCaseOf (ascii : Ascii cs) :
    Text.lower (withCaseOf pattern cs) = Text.lower cs := by
  unfold withCaseOf
  split
  · exact Text.lower_upper ascii
  · split
    · exact Text.lower_capitalize ascii
    · rfl

/-- A front of a word is found again from its small form if the capitals are not mixed. -/
theorem prefix_withCaseOf (isWord : IsWord word) (ascii : Ascii word)
    (plain : ¬ MixedCapitals word) (inside : front <+: word) :
    front <+: withCaseOf word (Text.lower front ++ added) := by
  obtain ⟨c, rest, rfl⟩ := List.exists_cons_of_ne_nil isWord.nonempty
  obtain ⟨first, others⟩ := List.forall_mem_cons.mp ascii
  have asciiFront : Ascii front := fun d member => ascii d (inside.subset member)
  cases capital : isUppercase c with
  | false =>
      have none : ∀ d ∈ c :: rest, isUppercase d = false :=
        List.forall_mem_cons.mpr ⟨capital, isWord.isUppercase_tail ascii capital⟩
      rw [withCaseOf_small none,
        Text.lower_eq_self asciiFront fun d member => none d (inside.subset member)]
      exact List.prefix_append front added
  | true =>
      have notSmall := Text.not_isLowercase_of_isUppercase first capital
      by_cases small : ∃ d ∈ rest, isLowercase d = true
      · rw [withCaseOf_initial capital small]
        cases front with
        | nil => exact List.nil_prefix
        | cons d front =>
            -- behind the initial, the small form is the word itself
            obtain ⟨rfl, insideRest⟩ := List.cons_prefix_cons.mp inside
            have none := isWord.isUppercase_rest ascii plain capital small
            have asciiRest := (List.forall_mem_cons.mp asciiFront).2
            rw [Text.lower_cons first asciiRest,
              Text.lower_eq_self asciiRest fun e member => none e (insideRest.subset member),
              List.cons_append, Text.capitalize_toLower_cons first capital]
            exact List.prefix_append (d :: front) added
      · have none : ∀ d ∈ rest, isLowercase d = false := by simpa using small
        have noSmall : ∀ d ∈ c :: rest, isLowercase d = false :=
          List.forall_mem_cons.mpr ⟨notSmall, none⟩
        rw [withCaseOf_capitals capital none first, Text.upper_append,
          Text.upper_lower asciiFront fun d member => noSmall d (inside.subset member)]
        exact List.prefix_append front _

/-- Of mixed capitals the second one is lost. -/
theorem not_prefix_withCaseOf (ascii : Ascii (c :: d :: front)) (first : isUppercase c = true)
    (second : isUppercase d = true) (small : ∃ e ∈ rest, isLowercase e = true) :
    ¬ c :: d :: front <+:
      withCaseOf (c :: d :: rest) (Text.lower (c :: d :: front) ++ added) ++ back := by
  obtain ⟨asciiFirst, others⟩ := List.forall_mem_cons.mp ascii
  obtain ⟨asciiSecond, others'⟩ := List.forall_mem_cons.mp others
  obtain ⟨e, member, isSmall⟩ := small
  rw [withCaseOf_initial first ⟨e, List.mem_cons_of_mem _ member, isSmall⟩,
    Text.lower_cons asciiFirst others, Text.lower_cons asciiSecond others', List.cons_append,
    Text.capitalize_cons (Text.forms_of_ascii asciiFirst).1]
  intro same
  have equal := (List.cons_prefix_cons.mp (List.cons_prefix_cons.mp same).2).1
  have lowered := (Text.toLower_eq_self_iff asciiSecond).mp equal.symm
  rw [second] at lowered
  cases lowered

theorem lower_suffix (ascii : Ascii (c :: d :: rest)) :
    Text.lower rest <:+ Text.lower (c :: d :: rest) := by
  obtain ⟨first, others⟩ := List.forall_mem_cons.mp ascii
  obtain ⟨second, later⟩ := List.forall_mem_cons.mp others
  rw [Text.lower_cons first others, Text.lower_cons second later]
  exact List.suffix_append [c.toLower, d.toLower] _

/-- An ending of a word with mixed capitals is replaced behind the digit. -/
theorem length_replaced_le (isWord : IsWord (c :: d :: rest))
    (ascii : Ascii (c :: d :: rest)) (first : isUppercase c = true) (second : isUppercase d = true)
    (small : ∃ e ∈ rest, isLowercase e = true) :
    (replaced (Text.lower (c :: d :: rest))).length ≤ rest.length := by
  obtain ⟨-, others⟩ := List.forall_mem_cons.mp ascii
  obtain ⟨-, others⟩ := List.forall_mem_cons.mp others
  obtain ⟨g, member, digit⟩ := isWord.exists_digit_lower others first second small
  have suffix := replaced_suffix (Text.lower (c :: d :: rest))
  have later := lower_suffix ascii
  rw [← Text.length_lower others]
  -- an ending that goes further to the front would hold the digit
  rcases List.suffix_or_suffix_of_suffix suffix later with inside | around
  · exact inside.length_le
  · have letter := isDigit_of_mem_replaced (around.subset member)
    rw [digit] at letter
    cases letter

end Case

/-! ## The plural -/

section Plural

variable {c d : Char} {word rest back : List Char}

theorem ascii_kept (ascii : Ascii word) : Ascii (kept word) :=
  fun c member => ascii c (List.mem_of_mem_take member)

/-- Two capitals of a word with small letters are kept. -/
theorem exists_kept_mixed (isWord : IsWord (c :: d :: rest)) (ascii : Ascii (c :: d :: rest))
    (first : isUppercase c = true) (second : isUppercase d = true)
    (small : ∃ e ∈ rest, isLowercase e = true) :
    ∃ front, kept (c :: d :: rest) = c :: d :: front := by
  have bound := length_replaced_le isWord ascii first second small
  obtain ⟨n, length⟩ : ∃ n,
      (c :: d :: rest).length - (replaced (Text.lower (c :: d :: rest))).length = n + 2 := by
    refine ⟨rest.length - (replaced (Text.lower (c :: d :: rest))).length, ?_⟩
    rw [List.length_cons, List.length_cons]
    omega
  refine ⟨rest.take n, ?_⟩
  rw [kept, length]
  rfl

/-- The plural of a word without a plural of its own: the word, or what is kept of it with something
added, written like the word. -/
theorem pluralWord_cases (ascii : Ascii word)
    (regular : ∀ entry ∈ irregular, entry.1.toList ≠ Text.lower word) :
    (uncountable.any (·.toList == Text.lower word) = true ∧ kept word = word ∧
      pluralWord word = word) ∨
    ∃ added, Ascii added ∧ pluralWord word = withCaseOf word (Text.lower (kept word) ++ added) := by
  by_cases whole : uncountable.any (·.toList == Text.lower word) = true
  · refine .inl ⟨whole, ?_, if_pos whole⟩
    rw [kept, replaced, if_pos whole]
    exact List.take_length
  · obtain ⟨added, asciiAdded, countable⟩ := countablePlural_eq whole regular
    refine .inr ⟨added, asciiAdded, ?_⟩
    have front : Text.lower (kept word) = (Text.lower word).take
        ((Text.lower word).length - (replaced (Text.lower word)).length) := by
      rw [Text.lower_of_ascii (ascii_kept ascii), kept, List.map_take, ← Text.lower_of_ascii ascii,
        Text.length_lower ascii]
    rw [front, ← countable]
    exact if_neg whole

/-- A plural goes on like the word, but for the case of its letters. -/
theorem lower_kept_prefix (ascii : Ascii word)
    (regular : ∀ entry ∈ irregular, entry.1.toList ≠ Text.lower word) :
    Text.lower (kept word) <+: Text.lower (pluralWord word) := by
  rcases pluralWord_cases ascii regular with ⟨-, whole, same⟩ | ⟨added, asciiAdded, changed⟩
  · rw [whole, same]
  · have asciiKept := ascii_kept ascii
    have small := Text.ascii_lower asciiKept
    rw [changed, lower_withCaseOf (List.forall_mem_append.mpr ⟨small, asciiAdded⟩),
      Text.lower_append small asciiAdded, Text.lower_lower asciiKept]
    exact List.prefix_append _ _

/-- A word that is its own plural has no digit, so its capitals are not mixed. -/
theorem not_mixedCapitals_of_uncountable (isWord : IsWord word) (ascii : Ascii word)
    (whole : uncountable.any (·.toList == Text.lower word) = true) : ¬ MixedCapitals word := by
  rintro ⟨c, d, rest, rfl, first, second, small⟩
  have letters : uncountable.all fun entry => entry.toList.all fun c => !c.isDigit := by
    decide +kernel
  obtain ⟨entry, member, same⟩ := List.any_eq_true.mp whole
  have noDigit := List.all_eq_true.mp (List.all_eq_true.mp letters entry member)
  rw [beq_iff_eq.mp same] at noDigit
  have others : Ascii rest := fun e member => ascii e (by simp [member])
  obtain ⟨g, inRest, digit⟩ := isWord.exists_digit_lower others first second small
  have letter := noDigit g ((lower_suffix ascii).subset inRest)
  rw [digit] at letter
  cases letter

/-- What is kept of a word stands at the front of its plural as it is, unless its capitals are
mixed. -/
theorem kept_prefix_iff (isWord : IsWord word) (ascii : Ascii word)
    (regular : ∀ entry ∈ irregular, entry.1.toList ≠ Text.lower word) :
    kept word <+: pluralWord word ++ back ↔ ¬ MixedCapitals word := by
  rcases pluralWord_cases ascii regular with ⟨entry, whole, same⟩ | ⟨added, -, changed⟩
  · -- both sides hold
    rw [whole, same]
    exact iff_of_true (List.prefix_append _ _)
      (not_mixedCapitals_of_uncountable isWord ascii entry)
  · rw [changed]
    constructor
    · rintro inside ⟨c, d, rest, rfl, first, second, small⟩
      -- both capitals are kept, and the second one stands in the plural as a small letter
      obtain ⟨front, same⟩ := exists_kept_mixed isWord ascii first second small
      have asciiKept := ascii_kept ascii
      rw [same] at inside asciiKept
      exact not_prefix_withCaseOf asciiKept first second small inside
    · intro plain
      exact (prefix_withCaseOf isWord ascii plain (List.take_prefix _ _)).trans
        (List.prefix_append _ _)

end Plural

/-- **The plural rewrites an ending only.** A name with a word has a last one, and if that has no
plural of its own, the plural is the name up to the replaced ending, but for the case of letters,
and what stands behind the word. The case is kept exactly when the capitals of the word are not
mixed. -/
theorem plural_keeps_iff (name : String) (ascii : Ascii name.toList) :
    (words name.toList ≠ [] → ∃ front word back, LastWord name.toList front word back) ∧
    ∀ front word back, LastWord name.toList front word back →
      (∀ entry ∈ irregular, entry.1.toList ≠ Text.lower word) →
      name.toList = front ++ word ++ back ∧
      ∃ changed, (plural name).toList = front ++ changed ++ back ∧
        Text.lower (kept word) <+: Text.lower changed ∧
        (front ++ kept word <+: (plural name).toList ↔ ¬ MixedCapitals word) := by
  refine ⟨exists_lastWord, ?_⟩
  intro front word back last regular
  have isWord := isWord_of_mem_words last.mem_words
  have asciiWord : Ascii word := fun c inside => ascii c (mem_of_mem_words last.mem_words inside)
  have changed : (plural name).toList = front ++ pluralWord word ++ back := by
    rw [plural, String.toList_ofList, last.pluralChars_eq]
  refine ⟨last.name_eq, pluralWord word, changed, lower_kept_prefix asciiWord regular, ?_⟩
  rw [changed, List.append_assoc, List.prefix_append_right_inj]
  exact kept_prefix_iff isWord asciiWord regular

/-- A plural with a gap behind it and a word in front of it, where the acronym ends. -/
theorem plural_keeps_iff_category :
    LastWord "my-HTTPCategory-".toList "my-HTTP".toList "Category".toList "-".toList ∧
      kept "Category".toList = "Categor".toList ∧ ¬ MixedCapitals "Category".toList ∧
      "my-HTTP".toList ++ "Categor".toList <+: (plural "my-HTTPCategory-").toList ∧
      "-".toList <:+ (plural "my-HTTPCategory-").toList := by
  have ascii : Ascii "my-HTTPCategory-".toList := List.all_eq_true.mp (by decide +kernel)
  have last : LastWord "my-HTTPCategory-".toList "my-HTTP".toList "Category".toList "-".toList :=
    ⟨[.word ['m', 'y'], .gap '-', .word ['H', 'T', 'T', 'P']], [.gap '-'], by decide +kernel,
      by decide, rfl, rfl⟩
  have regular : ∀ entry ∈ irregular, entry.1.toList ≠ Text.lower "Category".toList := by
    decide +kernel
  have front : kept "Category".toList = "Categor".toList := by decide +kernel
  have plain : ¬ MixedCapitals "Category".toList := by
    rintro ⟨c, d, rest, equal, -, second, -⟩
    obtain ⟨-, rfl, -⟩ : 'C' = c ∧ 'a' = d ∧ "tegory".toList = rest := by simpa using equal
    exact absurd second (by decide)
  obtain ⟨-, changed, whole, -, keeps⟩ :=
    (plural_keeps_iff "my-HTTPCategory-" ascii).2 _ _ _ last regular
  rw [front] at keeps
  refine ⟨last, front, plain, keeps.mpr plain, ?_⟩
  rw [whole]
  exact List.suffix_append _ _

/-- Two capitals and a digit in front of small letters: the second capital is lost. -/
theorem plural_loses_capital :
    Ascii "MP3player".toList ∧ LastWord "MP3player".toList [] "MP3player".toList [] ∧
      (∀ entry ∈ irregular, entry.1.toList ≠ Text.lower "MP3player".toList) ∧
      kept "MP3player".toList = "MP3player".toList ∧ plural "MP3player" = "Mp3players" ∧
      ¬ "MP3player".toList <+: (plural "MP3player").toList := by
  have ascii : Ascii "MP3player".toList := List.all_eq_true.mp (by decide +kernel)
  have last : LastWord "MP3player".toList [] "MP3player".toList [] :=
    ⟨[], [], by decide +kernel, nofun, rfl, rfl⟩
  have changed : plural "MP3player" = "Mp3players" := by decide +kernel
  refine ⟨ascii, last, by decide +kernel, by decide +kernel, changed, ?_⟩
  rw [changed]
  decide +kernel

end EntityFlow.Name
