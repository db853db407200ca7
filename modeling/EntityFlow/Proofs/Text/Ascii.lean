import Mathlib
import EntityFlow.Text.LetterCase

/-!
# Letter case of ASCII texts

On ASCII the classes of characters are the rules of the basic alphabet, every character has one
small and one capital form, and no letter is mapped with regard to its neighbours. So case mappings
work character by character (`Text.lower_of_ascii`, `Text.upper_of_ascii`), and they keep letters
letters and digits digits.
-/

namespace EntityFlow

namespace Text

/-- A text of ASCII characters. -/
abbrev Ascii (cs : List Char) : Prop := ∀ c ∈ cs, isAscii c = true

/-! ## Characters -/

section Characters

variable {c : Char}

theorem isUppercase_of_ascii (ascii : isAscii c = true) : isUppercase c = c.isUpper := if_pos ascii

theorem isLowercase_of_ascii (ascii : isAscii c = true) : isLowercase c = c.isLower := if_pos ascii

theorem isAlphanumeric_of_ascii (ascii : isAscii c = true) : isAlphanumeric c = c.isAlphanum := by
  rw [isAlphanumeric, isAlphabetic, isNumeric, if_pos ascii, if_pos ascii, Char.isAlphanum]

theorem lowerChar_of_ascii (ascii : isAscii c = true) : lowerChar c = [c.toLower] := if_pos ascii

theorem upperChar_of_ascii (ascii : isAscii c = true) : upperChar c = [c.toUpper] := if_pos ascii

/-- A character of ASCII stays one in small and in capital form, and a digit stays as it is. -/
theorem ascii_forms : ∀ code < 128,
    isAscii (Char.ofNat code).toLower = true ∧ isAscii (Char.ofNat code).toUpper = true ∧
      (Char.ofNat code).toLower.isDigit = (Char.ofNat code).isDigit ∧
      (Char.ofNat code).toUpper.isDigit = (Char.ofNat code).isDigit := by
  decide +kernel

theorem forms_of_ascii (ascii : isAscii c = true) :
    isAscii c.toLower = true ∧ isAscii c.toUpper = true ∧ c.toLower.isDigit = c.isDigit ∧
      c.toUpper.isDigit = c.isDigit := by
  have forms := ascii_forms c.toNat (of_decide_eq_true ascii)
  rwa [Char.ofNat_toNat] at forms

theorem isAlphanumeric_toLower (ascii : isAscii c = true) :
    isAlphanumeric c.toLower = isAlphanumeric c := by
  obtain ⟨lower, -, digit, -⟩ := forms_of_ascii ascii
  rw [isAlphanumeric_of_ascii lower, isAlphanumeric_of_ascii ascii, Char.isAlphanum,
    Char.isAlphanum, Char.isAlpha_toLower_eq_isAlpha, digit]

theorem isAlphanumeric_toUpper (ascii : isAscii c = true) :
    isAlphanumeric c.toUpper = isAlphanumeric c := by
  obtain ⟨-, upper, -, digit⟩ := forms_of_ascii ascii
  rw [isAlphanumeric_of_ascii upper, isAlphanumeric_of_ascii ascii, Char.isAlphanum,
    Char.isAlphanum, Char.isAlpha_toUpper_eq_isAlpha, digit]

theorem isUppercase_toLower (ascii : isAscii c = true) : isUppercase c.toLower = false := by
  rw [isUppercase_of_ascii (forms_of_ascii ascii).1, Char.isUpper_toLower_eq_false]

/-- A letter or digit that is no capital and no small letter is a digit. -/
theorem isDigit_of_uncased (ascii : isAscii c = true) (letter : isAlphanumeric c = true)
    (notUpper : isUppercase c = false) (notLower : isLowercase c = false) : c.isDigit = true := by
  rw [isAlphanumeric_of_ascii ascii, Char.isAlphanum, Char.isAlpha] at letter
  rw [isUppercase_of_ascii ascii] at notUpper
  rw [isLowercase_of_ascii ascii] at notLower
  simpa [notUpper, notLower] using letter

theorem not_isLowercase_of_isUppercase (ascii : isAscii c = true)
    (capital : isUppercase c = true) : isLowercase c = false := by
  rw [isUppercase_of_ascii ascii] at capital
  rw [isLowercase_of_ascii ascii]
  exact Bool.eq_false_iff.mpr (Char.not_isLower_of_isUpper capital)

theorem not_isUppercase_of_isLowercase (ascii : isAscii c = true)
    (small : isLowercase c = true) : isUppercase c = false := by
  by_contra capital
  rw [Bool.not_eq_false] at capital
  rw [not_isLowercase_of_isUppercase ascii capital] at small
  cases small

theorem toUpper_of_isUppercase (ascii : isAscii c = true) (capital : isUppercase c = true) :
    c.toUpper = c := by
  rw [isUppercase_of_ascii ascii] at capital
  exact Char.toUpper_eq_of_not_isLower (Char.not_isLower_of_isUpper capital)

theorem toLower_eq_self_iff (ascii : isAscii c = true) :
    c.toLower = c ↔ isUppercase c = false := by
  rw [isUppercase_of_ascii ascii]
  constructor
  · intro same
    rw [← same, Char.isUpper_toLower_eq_false]
  · intro notUpper
    exact Char.toLower_eq_of_not_isUpper (by simp [notUpper])

end Characters

/-! ## Texts -/

section Texts

variable {c : Char} {cs : List Char}

theorem lowerFrom_of_ascii (before : List Char) (ascii : Ascii cs) :
    lowerFrom before cs = cs.map Char.toLower := by
  induction cs generalizing before with
  | nil => rfl
  | cons c cs ih =>
      obtain ⟨first, others⟩ := List.forall_mem_cons.mp ascii
      have other : ¬ c == 'Σ' := by
        intro sigma
        rw [beq_iff_eq.mp sigma] at first
        exact absurd first (by decide)
      rw [lowerFrom, ih _ others, if_neg other, lowerChar_of_ascii first]
      rfl

theorem lower_of_ascii (ascii : Ascii cs) : lower cs = cs.map Char.toLower :=
  lowerFrom_of_ascii [] ascii

theorem upper_of_ascii (ascii : Ascii cs) : upper cs = cs.map Char.toUpper := by
  induction cs with
  | nil => rfl
  | cons c cs ih =>
      obtain ⟨first, others⟩ := List.forall_mem_cons.mp ascii
      rw [upper, List.flatMap_cons, upperChar_of_ascii first, List.map_cons, ← ih others]
      rfl

theorem ascii_lower (ascii : Ascii cs) : Ascii (lower cs) := by
  rw [lower_of_ascii ascii]
  intro c member
  obtain ⟨d, among, rfl⟩ := List.mem_map.mp member
  exact (forms_of_ascii (ascii d among)).1

theorem ascii_upper (ascii : Ascii cs) : Ascii (upper cs) := by
  rw [upper_of_ascii ascii]
  intro c member
  obtain ⟨d, among, rfl⟩ := List.mem_map.mp member
  exact (forms_of_ascii (ascii d among)).2.1

theorem lower_lower (ascii : Ascii cs) : lower (lower cs) = lower cs := by
  rw [lower_of_ascii (ascii_lower ascii), lower_of_ascii ascii, List.map_map]
  exact List.map_congr_left fun c _ => Char.toLower_toLower_eq_toLower c

theorem lower_upper (ascii : Ascii cs) : lower (upper cs) = lower cs := by
  rw [lower_of_ascii (ascii_upper ascii), lower_of_ascii ascii, upper_of_ascii ascii, List.map_map]
  exact List.map_congr_left fun c _ => Char.toLower_toUpper_eq_toLower c

theorem lower_cons (ascii : isAscii c = true) (asciiNext : Ascii cs) :
    lower (c :: cs) = c.toLower :: lower cs := by
  rw [lower_of_ascii asciiNext, lower_of_ascii (List.forall_mem_cons.mpr ⟨ascii, asciiNext⟩)]
  rfl

theorem length_lower (ascii : Ascii cs) : (lower cs).length = cs.length := by
  rw [lower_of_ascii ascii, List.length_map]

theorem lower_append {ds : List Char} (ascii : Ascii cs) (asciiNext : Ascii ds) :
    lower (cs ++ ds) = lower cs ++ lower ds := by
  rw [lower_of_ascii ascii, lower_of_ascii asciiNext,
    lower_of_ascii (List.forall_mem_append.mpr ⟨ascii, asciiNext⟩), List.map_append]

theorem upper_append (cs ds : List Char) : upper (cs ++ ds) = upper cs ++ upper ds :=
  List.flatMap_append

/-- A text without capitals is in small letters. -/
theorem lower_eq_self (ascii : Ascii cs) (small : ∀ c ∈ cs, isUppercase c = false) :
    lower cs = cs := by
  have same : ∀ c ∈ cs, c.toLower = id c := fun c member =>
    (toLower_eq_self_iff (ascii c member)).mpr (small c member)
  rw [lower_of_ascii ascii, List.map_congr_left same, List.map_id]

/-- A text without small letters is found again from its small form. -/
theorem upper_lower (ascii : Ascii cs) (capitals : ∀ c ∈ cs, isLowercase c = false) :
    upper (lower cs) = cs := by
  have same : ∀ c ∈ cs, (Char.toUpper ∘ Char.toLower) c = id c := by
    intro c member
    have capital := capitals c member
    rw [isLowercase_of_ascii (ascii c member)] at capital
    rw [Function.comp, Char.toUpper_toLower_eq_toUpper]
    exact Char.toUpper_eq_of_not_isLower (Bool.eq_false_iff.mp capital)
  rw [upper_of_ascii (ascii_lower ascii), lower_of_ascii ascii, List.map_map,
    List.map_congr_left same, List.map_id]

theorem capitalize_cons (ascii : isAscii c = true) : capitalize (c :: cs) = c.toUpper :: cs := by
  rw [capitalize, upperChar_of_ascii ascii]
  rfl

/-- A capital is found again from its small form. -/
theorem capitalize_toLower_cons (ascii : isAscii c = true) (capital : isUppercase c = true) :
    capitalize (c.toLower :: cs) = c :: cs := by
  rw [capitalize_cons (forms_of_ascii ascii).1, Char.toUpper_toLower_eq_toUpper,
    toUpper_of_isUppercase ascii capital]

theorem lower_capitalize (ascii : Ascii cs) : lower (capitalize cs) = lower cs := by
  cases cs with
  | nil => rfl
  | cons c cs =>
      obtain ⟨first, others⟩ := List.forall_mem_cons.mp ascii
      have capital : Ascii (c.toUpper :: cs) :=
        List.forall_mem_cons.mpr ⟨(forms_of_ascii first).2.1, others⟩
      rw [capitalize_cons first, lower_of_ascii capital, lower_of_ascii ascii, List.map_cons,
        List.map_cons, Char.toLower_toUpper_eq_toLower]

theorem uncapitalize_cons (ascii : isAscii c = true) :
    uncapitalize (c :: cs) = c.toLower :: cs := by
  rw [uncapitalize, lowerChar_of_ascii ascii]
  rfl

end Texts

end Text

end EntityFlow
