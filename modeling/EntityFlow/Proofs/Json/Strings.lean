import EntityFlow.Json.Basic
import EntityFlow.Proofs.Json.Reader

/-!
# Reading back strings

A string is written so that a reader finds the same string (`string?_quoted`): what would end the
string or is no visible character is written with a backslash, and everything else as it is.
-/

namespace EntityFlow.Json.Reader

theorem hexValue?_hexDigit : ∀ n < 16, hexValue? (hexDigit n) = some n := by decide

/-- A control character is one unit, written with four digits. -/
theorem escaped?_control {c : Char} (control : c.toNat < 32) (rest : List Char) :
    escaped? ('u' :: '0' :: '0' :: hexDigit (c.toNat / 16) :: hexDigit (c.toNat % 16) :: rest) =
      some (c, rest) := by
  have high := hexValue?_hexDigit (c.toNat / 16) (by omega)
  have low := hexValue?_hexDigit (c.toNat % 16) (by omega)
  have zero : hexValue? '0' = some 0 := by decide
  have number : ((0 * 16 + 0) * 16 + c.toNat / 16) * 16 + c.toNat % 16 = c.toNat := by omega
  have unit : unit? ('0' :: '0' :: hexDigit (c.toNat / 16) :: hexDigit (c.toNat % 16) :: rest) =
      some (c.toNat, rest) := by
    simp only [unit?, high, low, zero, Option.bind_eq_bind, Option.bind_some, number]
    rfl
  have plain : c.toNat < 0xD800 ∨ 0xE000 ≤ c.toNat := by omega
  show codePoint? _ = _
  rw [codePoint?, unit]
  show (if _ then _ else _) = _
  rw [if_pos plain, Char.ofNat_toNat]

/-- A character is written as it is, or with a backslash and what is read as it. -/
theorem escapeChar_cases (c : Char) :
    (escapeChar c = [c] ∧ c ≠ '"' ∧ c ≠ '\\' ∧ ¬ c.toNat < 32) ∨
      ∃ more, escapeChar c = '\\' :: more ∧
        ∀ rest, escaped? (more ++ rest) = some (c, rest) := by
  have named : ∀ n < 14, c.toNat = n → c = Char.ofNat n := by
    intro n _ same
    rw [← same, Char.ofNat_toNat]
  unfold escapeChar
  split
  case isTrue quote => exact .inr ⟨_, rfl, fun rest => by rw [quote]; rfl⟩
  split
  case isTrue backslash => exact .inr ⟨_, rfl, fun rest => by rw [backslash]; rfl⟩
  split
  case isTrue newline => exact .inr ⟨_, rfl, fun rest => by rw [newline]; rfl⟩
  split
  case isTrue carriage => exact .inr ⟨_, rfl, fun rest => by rw [carriage]; rfl⟩
  split
  case isTrue tab => exact .inr ⟨_, rfl, fun rest => by rw [tab]; rfl⟩
  split
  case isTrue backspace =>
    exact .inr ⟨_, rfl, fun rest => by rw [named 8 (by decide) backspace]; rfl⟩
  split
  case isTrue feed => exact .inr ⟨_, rfl, fun rest => by rw [named 12 (by decide) feed]; rfl⟩
  split
  case isTrue control => exact .inr ⟨_, rfl, escaped?_control control⟩
  case isFalse noQuote noBackslash _ _ _ _ _ visible =>
    exact .inl ⟨rfl, noQuote, noBackslash, visible⟩

/-- A written character is read as the character. -/
theorem chars?_escapeChar (c : Char) (n : Nat) (rest : List Char) :
    chars? (n + 1) (escapeChar c ++ rest) =
      (chars? n rest).map fun (cs, rest) => (c :: cs, rest) := by
  rcases escapeChar_cases c with ⟨written, noQuote, noBackslash, visible⟩ | ⟨more, written, read⟩
  · rw [written, List.singleton_append, chars?, if_neg visible]
    · cases chars? n rest <;> rfl
    · exact noQuote
    · exact noBackslash
  · rw [written, List.cons_append, chars?, read, Option.bind_eq_bind, Option.bind_some]
    dsimp only
    cases chars? n rest <;> rfl

theorem chars?_quoted (cs : List Char) {n : Nat} (bound : cs.length < n) (rest : List Char) :
    chars? n (cs.flatMap escapeChar ++ '"' :: rest) = some (cs, rest) := by
  induction cs generalizing n with
  | nil =>
    cases n with
    | zero => simp at bound
    | succ n => rfl
  | cons c cs ih =>
    cases n with
    | zero => simp at bound
    | succ n =>
      have fewer : cs.length < n := by simpa using bound
      rw [List.flatMap_cons, List.append_assoc, chars?_escapeChar, ih fewer]
      rfl

theorem length_le_flatMap_escapeChar (cs : List Char) :
    cs.length ≤ (cs.flatMap escapeChar).length := by
  induction cs with
  | nil => simp
  | cons c cs ih =>
    have some : 1 ≤ (escapeChar c).length := by
      rcases escapeChar_cases c with ⟨written, _⟩ | ⟨more, written, _⟩ <;> simp [written]
    rw [List.flatMap_cons, List.length_append, List.length_cons]
    omega

/-- **Strings are read back.** What stands between the quotes of a written string, up to the second
of them, is read as the string. -/
theorem string?_quoted (s : String) (rest : List Char) :
    string? (s.toList.flatMap escapeChar ++ '"' :: rest) = some (s, rest) := by
  have fits := length_le_flatMap_escapeChar s.toList
  have bound : s.toList.length < (s.toList.flatMap escapeChar ++ '"' :: rest).length := by
    rw [List.length_append, List.length_cons]
    omega
  rw [string?, chars?_quoted s.toList bound]
  show some (String.ofList s.toList, rest) = _
  rw [String.ofList_toList]

end EntityFlow.Json.Reader
