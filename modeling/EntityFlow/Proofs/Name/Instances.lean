import EntityFlow.Proofs.Name.Plurals
import EntityFlow.Record.Entity

/-!
# Names of classes and instances

An instance is called like its class with a small initial, and so are many instances
(`Entity.named_instances`). The two plurals are made from different names. But if a small letter
follows the initial, both names are cut into words at the same places, whether the initial is small
or not, and the plural of the first word goes on in the same way behind it
(`Name.pluralWord_initial`).
-/

namespace EntityFlow

namespace Name

open Text (Ascii isUppercase isLowercase)

variable {c d : Char} {w rest : List Char}

/-- Whether the initial in front of a small letter is a capital counts for the initial of the plural
only. -/
theorem pluralWord_initial (isWord : IsWord (d :: w)) (ascii : Ascii (c :: d :: w))
    (capital : isUppercase c = true) (small : isLowercase d = true) :
    ∃ more, pluralWord (c :: d :: w) = c :: more ∧
      pluralWord (c.toLower :: d :: w) = c.toLower :: more := by
  obtain ⟨first, others⟩ := List.forall_mem_cons.mp ascii
  have forms := Text.forms_of_ascii first
  have same : Text.lower (c.toLower :: d :: w) = Text.lower (c :: d :: w) := by
    rw [Text.lower_cons forms.1 others, Text.lower_cons first others,
      Char.toLower_toLower_eq_toLower]
  unfold pluralWord
  rw [same]
  dsimp only
  split
  · exact ⟨d :: w, rfl, rfl⟩
  · -- the plural in small letters starts like the word, so only its initial is written anew
    obtain ⟨more, plural⟩ : ∃ more,
        countablePlural (Text.lower (c :: d :: w)) = c.toLower :: more := by
      rw [Text.lower_cons first others]
      exact List.head?_eq_some_iff.mp (head?_countablePlural (List.cons_ne_nil _ _))
    have second := Text.not_isUppercase_of_isLowercase (others d List.mem_cons_self) small
    have none : ∀ e ∈ c.toLower :: d :: w, isUppercase e = false :=
      List.forall_mem_cons.mpr ⟨Text.isUppercase_toLower first,
        List.forall_mem_cons.mpr ⟨second, isWord.isUppercase_tail others second⟩⟩
    refine ⟨more, ?_, ?_⟩
    · rw [withCaseOf_initial capital ⟨d, List.mem_cons_self, small⟩, plural,
        Text.capitalize_toLower_cons first capital]
    · rw [withCaseOf_small none, plural]

/-- An initial in front of a small letter starts a word that goes on behind it. -/
theorem segments_cons_small {others : List Segment} (letter : Text.isAlphanumeric c = true)
    (second : isUppercase d = false) (later : segments (d :: rest) = .word (d :: w) :: others) :
    segments (c :: d :: rest) = .word (c :: d :: w) :: others := by
  have whole : ¬ breaksBetween c d rest.head? = true := by
    rw [breaksBetween, second, Bool.false_and]
    exact Bool.false_ne_true
  rw [segments_cons_word letter later, if_neg whole]

/-- The plural of a name in camel case with a capital initial in front of a small letter, and that
of the name with a small initial. -/
theorem pluralChars_initial (compact : IsCompact (c :: d :: rest)) (capital : isUppercase c = true)
    (small : isLowercase d = true) :
    ∃ more, pluralChars (c :: d :: rest) = c :: more ∧
      pluralChars (c.toLower :: d :: rest) = c.toLower :: more := by
  obtain ⟨⟨first, letter⟩, compactRest⟩ := compact.of_cons
  obtain ⟨⟨asciiNext, isNext⟩, -⟩ := compactRest.of_cons
  obtain ⟨w, others, later⟩ := exists_segments_cons isNext rest
  have member : d :: w ∈ words (d :: rest) := by
    rw [mem_words, later]
    exact List.mem_cons_self
  have second := Text.not_isUppercase_of_isLowercase asciiNext small
  have letterSmall : Text.isAlphanumeric c.toLower = true := by
    rwa [Text.isAlphanumeric_toLower first]
  rw [pluralChars, segments_cons_small letter second later, pluralChars,
    segments_cons_small letterSmall second later, changeLastWord, changeLastWord]
  split
  · -- another word is the last one, and it is cut off in the same way
    exact ⟨_, rfl, rfl⟩
  · have asciiWord : Ascii (c :: d :: w) := List.forall_mem_cons.mpr
      ⟨first, (isCompact_of_mem_words compactRest.ascii member).ascii⟩
    obtain ⟨more, ofClass, ofInstance⟩ :=
      pluralWord_initial (isWord_of_mem_words member) asciiWord capital small
    refine ⟨more ++ joined others, ?_, ?_⟩
    · rw [ofClass]
      rfl
    · rw [ofInstance]
      rfl

end Name

namespace Entity

open Text (Ascii isUppercase isLowercase)

/-- **Classes and instances are called alike.** If the name of the class starts with a capital and a
small letter, then that of the instance is the same with a small initial, and their plurals are the
same but for the initial. -/
theorem named_instances (name : String) (ascii : Ascii name.toList) {c d : Char} {rest : List Char}
    (className : (named name).className.toList = c :: d :: rest) (capital : isUppercase c = true)
    (small : isLowercase d = true) :
    (named name).instanceName.toList = c.toLower :: d :: rest ∧
      ∃ more, (named name).classNamePlural.toList = c :: more ∧
        (named name).instanceNamePlural.toList = c.toLower :: more := by
  have ofClass : Name.upperCamelChars name.toList = c :: d :: rest := by
    rw [← className]
    exact String.toList_ofList.symm
  have compact := Name.isCompact_upperCamelChars ascii
  have ofInstance : (named name).instanceName.toList = c.toLower :: d :: rest := by
    have stable := Name.upperCamelChars_upperCamelChars ascii
    rw [ofClass] at stable compact
    show (Name.lowerCamel (named name).className).toList = _
    rw [Name.lowerCamel, className, String.toList_ofList, Name.lowerCamelChars, stable,
      Text.uncapitalize_cons compact.of_cons.1.1]
  refine ⟨ofInstance, ?_⟩
  rw [ofClass] at compact
  obtain ⟨more, classPlural, instancePlural⟩ := Name.pluralChars_initial compact capital small
  refine ⟨more, ?_, ?_⟩
  · show (Name.plural (named name).className).toList = _
    rw [Name.plural, className, String.toList_ofList, classPlural]
  · show (Name.plural (named name).instanceName).toList = _
    rw [Name.plural, ofInstance, String.toList_ofList, instancePlural]

/-- A name of two words, the second with a plural of its own. -/
theorem named_instances_people :
    (named "sales-person").className = "SalesPerson" ∧
      (named "sales-person").instanceName = "salesPerson" ∧
      (named "sales-person").classNamePlural = "SalesPeople" ∧
      (named "sales-person").instanceNamePlural = "salesPeople" := by
  have ascii : Ascii "sales-person".toList := List.all_eq_true.mp (by decide +kernel)
  have className : (named "sales-person").className = "SalesPerson" := by decide +kernel
  have classNamePlural : (named "sales-person").classNamePlural = "SalesPeople" := by
    decide +kernel
  have initials : (named "sales-person").className.toList = 'S' :: 'a' :: "lesPerson".toList := by
    rw [className]
    decide +kernel
  obtain ⟨instanceName, more, ofClass, ofInstance⟩ :=
    named_instances "sales-person" ascii initials (by decide) (by decide)
  have rest : "alesPeople".toList = more := by
    rw [classNamePlural] at ofClass
    exact (List.cons.inj ofClass).2
  refine ⟨className, String.toList_inj.mp ?_, classNamePlural, String.toList_inj.mp ?_⟩
  · rw [instanceName]
    decide +kernel
  · rw [ofInstance, ← rest]
    decide +kernel

end Entity

end EntityFlow
