import EntityFlow.Name.Inflection
import EntityFlow.Proofs.Name.Words
import EntityFlow.Proofs.Text.Ascii

/-!
# Naming conventions are stable

A name that is written in a convention is not changed by the convention, and what one form of a
convention has written the other form turns into what it would have written itself
(`Name.casings_stable`).

* **Camel case** has no gaps, so every word but the first starts at a capital, and to write such a
  name with capital initials changes its first character at most, however it is cut into words
  (`Name.upperCamelChars_of_compact`).
* **Small words** joined with a gap are cut into just these words (`Name.words_lowerWords`).
-/

namespace EntityFlow.Name

open Text (Ascii isAscii isAlphanumeric isUppercase capitalize uncapitalize)

/-! ## Camel case -/

/-- A name of ASCII letters and digits. -/
structure IsCompact (name : List Char) : Prop where
  ascii : Ascii name
  letters : ∀ c ∈ name, isAlphanumeric c = true

section Camel

variable {c : Char} {name rest w cs : List Char} {parts : List Segment}

theorem capitalize_append (some : w ≠ []) : capitalize (w ++ rest) = capitalize w ++ rest := by
  obtain ⟨c, tail, rfl⟩ := List.exists_cons_of_ne_nil some
  rw [List.cons_append, capitalize, capitalize, List.append_assoc]

theorem capitalize_capitalize (ascii : Ascii cs) : capitalize (capitalize cs) = capitalize cs := by
  cases cs with
  | nil => rfl
  | cons c rest =>
      have first := ascii c List.mem_cons_self
      rw [Text.capitalize_cons first, Text.capitalize_cons (Text.forms_of_ascii first).2.1,
        Char.toUpper_toUpper_eq_toUpper]

theorem capitalize_uncapitalize (ascii : Ascii cs) :
    capitalize (uncapitalize cs) = capitalize cs := by
  cases cs with
  | nil => rfl
  | cons c rest =>
      have first := ascii c List.mem_cons_self
      rw [Text.uncapitalize_cons first, Text.capitalize_cons first,
        Text.capitalize_cons (Text.forms_of_ascii first).1, Char.toUpper_toLower_eq_toUpper]

theorem IsCompact.cons (first : isAscii c = true ∧ isAlphanumeric c = true)
    (later : IsCompact rest) : IsCompact (c :: rest) :=
  ⟨List.forall_mem_cons.mpr ⟨first.1, later.ascii⟩,
    List.forall_mem_cons.mpr ⟨first.2, later.letters⟩⟩

theorem IsCompact.of_cons (compact : IsCompact (c :: rest)) :
    (isAscii c = true ∧ isAlphanumeric c = true) ∧ IsCompact rest := by
  obtain ⟨ascii, letters⟩ := compact
  obtain ⟨first, ascii⟩ := List.forall_mem_cons.mp ascii
  obtain ⟨letter, letters⟩ := List.forall_mem_cons.mp letters
  exact ⟨⟨first, letter⟩, ascii, letters⟩

theorem IsCompact.capitalize (compact : IsCompact cs) : IsCompact (capitalize cs) := by
  cases cs with
  | nil => exact compact
  | cons c rest =>
      obtain ⟨⟨ascii, letter⟩, later⟩ := compact.of_cons
      rw [Text.capitalize_cons ascii]
      exact .cons ⟨(Text.forms_of_ascii ascii).2.1, by rwa [Text.isAlphanumeric_toUpper ascii]⟩
        later

theorem IsCompact.uncapitalize (compact : IsCompact cs) : IsCompact (uncapitalize cs) := by
  cases cs with
  | nil => exact compact
  | cons c rest =>
      obtain ⟨⟨ascii, letter⟩, later⟩ := compact.of_cons
      rw [Text.uncapitalize_cons ascii]
      exact .cons ⟨(Text.forms_of_ascii ascii).1, by rwa [Text.isAlphanumeric_toLower ascii]⟩ later

theorem isCompact_of_mem_words (ascii : Ascii name) (member : w ∈ words name) : IsCompact w :=
  ⟨fun _ inside => ascii _ (mem_of_mem_words member inside), (isWord_of_mem_words member).letters⟩

/-- Upper camel case has no gaps. -/
theorem isCompact_upperCamelChars (ascii : Ascii name) : IsCompact (upperCamelChars name) := by
  have each {w : List Char} (member : w ∈ words name) : IsCompact (capitalize w) :=
    (isCompact_of_mem_words ascii member).capitalize
  constructor
  · intro c member
    obtain ⟨w, among, inside⟩ := List.mem_flatMap.mp member
    exact (each among).ascii c inside
  · intro c member
    obtain ⟨w, among, inside⟩ := List.mem_flatMap.mp member
    exact (each among).letters c inside

/-- Capital initials change only the first character of a name without gaps. -/
theorem Parted.flatMap_capitalize (parted : Parted name parts) (compact : IsCompact name) :
    ((parts.filter Segment.isWord).map Segment.text).flatMap capitalize = capitalize name := by
  -- along the rules: a word that ends in front of another one has a capital behind it
  induction parted with
  | nil => rfl
  | @gap c rest parts other later ih =>
      have letter := compact.letters c List.mem_cons_self
      rw [other] at letter
      cases letter
  | @stop c rest parts letter apart later ih =>
      obtain ⟨⟨ascii, -⟩, compactRest⟩ := compact.of_cons
      have same : capitalize rest = rest := by
        cases rest with
        | nil => rfl
        | cons d more =>
            obtain ⟨⟨asciiNext, isNext⟩, -⟩ := compactRest.of_cons
            have breaks := apart d more rfl isNext
            rw [breaksBetween, Bool.and_eq_true] at breaks
            rw [Text.capitalize_cons asciiNext, Text.toUpper_of_isUppercase asciiNext breaks.1]
      show ([c] :: (parts.filter Segment.isWord).map Segment.text).flatMap capitalize =
        capitalize (c :: rest)
      rw [List.flatMap_cons, ih compactRest, same, Text.capitalize_cons ascii,
        Text.capitalize_cons ascii]
      rfl
  | @extend c d more w parts letter whole later ih =>
      obtain ⟨⟨ascii, -⟩, compactRest⟩ := compact.of_cons
      obtain ⟨⟨asciiNext, -⟩, -⟩ := compactRest.of_cons
      have inner := ih compactRest
      obtain ⟨tail, rfl, -⟩ := later.exists_tail
      -- the character behind the first one is an initial no longer, and stays as it is
      have after : tail ++ ((parts.filter Segment.isWord).map Segment.text).flatMap capitalize =
          more := by
        rw [Text.capitalize_cons asciiNext] at inner
        change capitalize (d :: tail) ++ _ = _ at inner
        rw [Text.capitalize_cons asciiNext] at inner
        exact (List.cons.inj inner).2
      show ((c :: d :: tail) :: (parts.filter Segment.isWord).map Segment.text).flatMap capitalize =
        capitalize (c :: d :: more)
      rw [List.flatMap_cons, Text.capitalize_cons ascii, Text.capitalize_cons ascii, ← after]
      rfl

theorem upperCamelChars_of_compact (compact : IsCompact name) :
    upperCamelChars name = capitalize name :=
  (parted_segments name).flatMap_capitalize compact

/-- Upper camel case starts with a capital form. -/
theorem capitalize_upperCamelChars (ascii : Ascii name) :
    capitalize (upperCamelChars name) = upperCamelChars name := by
  unfold upperCamelChars
  cases found : words name with
  | nil => rfl
  | cons w ws =>
      have member : w ∈ words name := by
        rw [found]
        exact List.mem_cons_self
      have some : capitalize w ≠ [] := by
        obtain ⟨c, tail, rfl⟩ := List.exists_cons_of_ne_nil (isWord_of_mem_words member).nonempty
        have first := (isCompact_of_mem_words ascii member).ascii c List.mem_cons_self
        rw [Text.capitalize_cons first]
        exact List.cons_ne_nil _ _
      rw [List.flatMap_cons, capitalize_append some,
        capitalize_capitalize (isCompact_of_mem_words ascii member).ascii]

theorem upperCamelChars_upperCamelChars (ascii : Ascii name) :
    upperCamelChars (upperCamelChars name) = upperCamelChars name := by
  rw [upperCamelChars_of_compact (isCompact_upperCamelChars ascii),
    capitalize_upperCamelChars ascii]

theorem upperCamelChars_lowerCamelChars (ascii : Ascii name) :
    upperCamelChars (lowerCamelChars name) = upperCamelChars name := by
  have compact := isCompact_upperCamelChars ascii
  rw [lowerCamelChars, upperCamelChars_of_compact compact.uncapitalize,
    capitalize_uncapitalize compact.ascii, capitalize_upperCamelChars ascii]

end Camel

/-! ## Small words -/

section Small

variable {s t : Char} {name w : List Char}

theorem isSmall_lower (ascii : Ascii name) (member : w ∈ words name) : IsSmall (Text.lower w) := by
  have compact := isCompact_of_mem_words ascii member
  rw [Text.lower_of_ascii compact.ascii]
  refine ⟨by simpa using (isWord_of_mem_words member).nonempty, fun c inside => ?_,
    fun c inside => ?_⟩
  · obtain ⟨d, among, rfl⟩ := List.mem_map.mp inside
    rw [Text.isAlphanumeric_toLower (compact.ascii d among)]
    exact compact.letters d among
  · obtain ⟨d, among, rfl⟩ := List.mem_map.mp inside
    exact Text.isUppercase_toLower (compact.ascii d among)

/-- Small words joined with a gap are the words of the name that they make up. -/
theorem words_lowerWords (gap : isAlphanumeric s = false) (ascii : Ascii name) :
    words (lowerWords [s] name) = (words name).map Text.lower := by
  apply words_join gap
  intro small member
  obtain ⟨w, among, rfl⟩ := List.mem_map.mp member
  exact isSmall_lower ascii among

theorem lowerWords_lowerWords (gap : isAlphanumeric s = false) (ascii : Ascii name) :
    lowerWords [t] (lowerWords [s] name) = lowerWords [t] name := by
  have same : (words name).map (Text.lower ∘ Text.lower) = (words name).map Text.lower :=
    List.map_congr_left fun w member => Text.lower_lower (isCompact_of_mem_words ascii member).ascii
  rw [lowerWords, words_lowerWords gap ascii, List.map_map, same]
  rfl

/-- Small words are joined without capitals if the gap is none. -/
theorem isUppercase_of_mem_lowerWords (plain : isUppercase s = false) (ascii : Ascii name) :
    ∀ c ∈ lowerWords [s] name, isUppercase c = false := by
  intro c member
  rcases Text.mem_join member with inGap | ⟨small, among, inside⟩
  · rw [List.mem_singleton.mp inGap]
    exact plain
  · obtain ⟨w, isWord, rfl⟩ := List.mem_map.mp among
    exact (isSmall_lower ascii isWord).small c inside

/-- A gap stands between two words only. -/
theorem lowerWords_separated (gap : isAlphanumeric s = false) (ascii : Ascii name) :
    (lowerWords [s] name).head? ≠ some s ∧ (lowerWords [s] name).getLast? ≠ some s ∧
      ¬ [s, s] <:+: lowerWords [s] name := by
  by_cases empty : words name = []
  · rw [lowerWords, empty]
    exact ⟨nofun, nofun, by simp [Text.join]⟩
  have each : ∀ small ∈ (words name).map Text.lower, IsSmall small := by
    intro small member
    obtain ⟨w, among, rfl⟩ := List.mem_map.mp member
    exact isSmall_lower ascii among
  apply Text.separated_of_nonempty
  rw [lowerWords, Text.splitAtChar_join (by simpa using empty)]
  · exact fun member => (each [] member).nonempty rfl
  · intro small member inside
    have letter := (each small member).letters s inside
    rw [gap] at letter
    cases letter

end Small

/-! ## Names as strings -/

/-- **The conventions are stable.** Each of two forms of a convention, camel case with a capital or
a small initial and small words with hyphens or underscores, turns what either of them has written
into what it would have written itself, and hyphens stand between words only. -/
theorem casings_stable (name : String) (ascii : Ascii name.toList) :
    (upperCamel (upperCamel name) = upperCamel name ∧
      upperCamel (lowerCamel name) = upperCamel name ∧
      lowerCamel (upperCamel name) = lowerCamel name ∧
      lowerCamel (lowerCamel name) = lowerCamel name) ∧
    (kebab (kebab name) = kebab name ∧ snake (snake name) = snake name ∧
      kebab (snake name) = kebab name ∧ snake (kebab name) = snake name) ∧
    (∀ c ∈ (kebab name).toList, isUppercase c = false) ∧ (kebab name).toList.head? ≠ some '-' ∧
      (kebab name).toList.getLast? ≠ some '-' ∧ ¬ ['-', '-'] <:+: (kebab name).toList := by
  have upper := upperCamelChars_upperCamelChars ascii
  have lower := upperCamelChars_lowerCamelChars ascii
  have hyphen : isAlphanumeric '-' = false := by decide
  have underscore : isAlphanumeric '_' = false := by decide
  have noCapital : isUppercase '-' = false := by decide
  simp only [upperCamel, lowerCamel, kebab, snake, String.toList_ofList, String.ofList_inj]
  refine ⟨⟨upper, lower, ?_, ?_⟩, ⟨lowerWords_lowerWords hyphen ascii,
    lowerWords_lowerWords underscore ascii, lowerWords_lowerWords underscore ascii,
    lowerWords_lowerWords hyphen ascii⟩, isUppercase_of_mem_lowerWords noCapital ascii,
    lowerWords_separated hyphen ascii⟩
  · rw [lowerCamelChars, upper]
    rfl
  · rw [lowerCamelChars, lower]
    rfl

/-- Single letters and an acronym, which are cut in another way once they stand together. -/
theorem casings_stable_initials :
    Ascii "x_y--HTTPServer2go".toList ∧
      (upperCamel "XYHTTPServer2go" = "XYHTTPServer2go" ∧
        upperCamel "xYHTTPServer2go" = "XYHTTPServer2go" ∧
        lowerCamel "XYHTTPServer2go" = "xYHTTPServer2go" ∧
        lowerCamel "xYHTTPServer2go" = "xYHTTPServer2go") ∧
      kebab "x-y-http-server2go" = "x-y-http-server2go" ∧
      snake "x_y_http_server2go" = "x_y_http_server2go" ∧
      kebab "x_y_http_server2go" = "x-y-http-server2go" ∧
      snake "x-y-http-server2go" = "x_y_http_server2go" := by
  have ascii : Ascii "x_y--HTTPServer2go".toList := List.all_eq_true.mp (by decide +kernel)
  have upper : upperCamel "x_y--HTTPServer2go" = "XYHTTPServer2go" := by decide +kernel
  have lower : lowerCamel "x_y--HTTPServer2go" = "xYHTTPServer2go" := by decide +kernel
  have hyphens : kebab "x_y--HTTPServer2go" = "x-y-http-server2go" := by decide +kernel
  have underscores : snake "x_y--HTTPServer2go" = "x_y_http_server2go" := by decide +kernel
  obtain ⟨camel, small, -⟩ := casings_stable "x_y--HTTPServer2go" ascii
  rw [upper, lower] at camel
  rw [hyphens, underscores] at small
  exact ⟨ascii, camel, small⟩

end EntityFlow.Name
