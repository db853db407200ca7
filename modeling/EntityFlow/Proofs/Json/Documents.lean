import EntityFlow.Proofs.Json.Numbers
import EntityFlow.Proofs.Json.Strings
import EntityFlow.Proofs.Number.Ties

/-!
# Reading back documents

The compact text of every document is read as what the document says (`read?_text`): a floating
point number as the decimal that is written for it, whose value need not be that of the number.
-/

namespace EntityFlow

/-- The value of the decimal that is written for a number of the format. -/
def Binary64.Float64.written (f : Binary64.Float64) : ℚ :=
  if f.mantissa = 0 then 0 else (f.shortest .even).1 * 10 ^ (f.shortest .even).2

namespace Json

/-! ## What a document says -/

mutual

/-- What a document says, numbers with their written value. -/
def data : Json → Data
  | .bool b => .bool b
  | .int n => .number n
  | .float negative size => .number (if negative then -size.written else size.written)
  | .string s => .string s
  | .array items => .array (itemsData items)
  | .object members => .object (membersData members)

def itemsData : List Json → List Data
  | [] => []
  | item :: rest => data item :: itemsData rest

def membersData : List (String × Json) → List (String × Data)
  | [] => []
  | (key, item) :: rest => (key, data item) :: membersData rest

end

namespace Reader

/-! ## Parts of a text -/

variable {rest cs : List Char} {n : Nat}

/-- What follows a value within a text: the end, a comma or a closing mark. -/
def Closes (rest : List Char) : Prop := ∀ c ∈ rest.head?, c = ',' ∨ c = ']' ∨ c = '\x7d'

theorem closes_cons {c : Char} (mark : c = ',' ∨ c = ']' ∨ c = '\x7d') : Closes (c :: rest) := by
  intro d head
  obtain rfl : c = d := by simpa using head
  exact mark

theorem Closes.ends (closes : Closes rest) : Ends rest := by
  intro c head
  rcases closes c head with rfl | rfl | rfl <;> decide

theorem skip_cons {c : Char} (visible : isSpace c = false) : skip (c :: rest) = c :: rest := by
  simp [skip, visible]

/-! ### Numbers -/

/-- A sign or a digit is in front of every number. -/
theorem exists_lead_of_number? {found : ℚ × List Char} (read : number? cs = some found) :
    ∃ c more, cs = c :: more ∧ (c = '-' ∨ c.isDigit = true) := by
  unfold number? at read
  split at read
  · exact ⟨'-', _, rfl, .inl rfl⟩
  · obtain ⟨c, more, rfl, digit⟩ := exists_digit_of_size? read
    exact ⟨c, more, rfl, .inr digit⟩

theorem lead_ne {c d : Char} (lead : c = '-' ∨ c.isDigit = true) (noSign : d ≠ '-')
    (noDigit : d.isDigit = false) : c ≠ d := by
  rintro rfl
  rcases lead with minus | digit
  · exact noSign minus
  · rw [noDigit] at digit
    cases digit

theorem isSpace_lead {c : Char} (lead : c = '-' ∨ c.isDigit = true) : isSpace c = false := by
  have other (d : Char) (noSign : d ≠ '-') (noDigit : d.isDigit = false) : (c == d) = false :=
    beq_eq_false_iff_ne.mpr (lead_ne lead noSign noDigit)
  unfold isSpace
  rw [other ' ' (by decide) (by decide), other '\t' (by decide) (by decide),
    other '\n' (by decide) (by decide), other '\r' (by decide) (by decide)]
  rfl

/-- A text that begins like a number is read as a number. -/
theorem value?_number {x : ℚ} (read : number? cs = some (x, rest)) :
    value? (n + 1) cs = some (.number x, rest) := by
  obtain ⟨c, more, rfl, lead⟩ := exists_lead_of_number? read
  have other {d : Char} (noSign : d ≠ '-') (noDigit : d.isDigit = false) : c ≠ d :=
    lead_ne lead noSign noDigit
  have noWord : word? (c :: more) = none := by
    have name (d : Char) (noSign : d ≠ '-') (noDigit : d.isDigit = false) : ¬ d = c :=
      (other noSign noDigit).symm
    simp [word?, words, name]
  rw [value?, skip_cons (isSpace_lead lead)]
  split
  case h_1 quote => exact absurd (List.cons.inj quote).1 (other (by decide) (by decide))
  case h_2 bracket => exact absurd (List.cons.inj bracket).1 (other (by decide) (by decide))
  case h_3 brace => exact absurd (List.cons.inj brace).1 (other (by decide) (by decide))
  case h_4 =>
    rw [noWord, read]
    rfl

theorem number?_floatText (negative : Bool) (f : Binary64.Float64) (ends : Ends rest) :
    number? (floatText negative f ++ rest) =
      some (if negative then -f.written else f.written, rest) := by
  have read : size? ((if f.mantissa = 0 then ['0', '.', '0']
      else floatDigits (f.shortest .even).1 (f.shortest .even).2) ++ rest) =
        some (f.written, rest) := by
    unfold Binary64.Float64.written
    split
    · have noZeros : 0 < 0 ∨ 0 = 0 := .inr rfl
      have zero : size? (['0', '.', '0'] ++ rest) = _ := size?_zeros noZeros ends
      rw [zero, Nat.cast_zero, zero_mul]
    · rename_i some
      exact size?_floatDigits (Binary64.shortest_proper (Nat.pos_of_ne_zero some) .even) ends
  unfold floatText
  dsimp only
  cases negative with
  | false => exact number?_eq_of_size? read
  | true => exact number?_minus read

/-! ### Words and strings -/

theorem value?_true : value? (n + 1) ("true".toList ++ rest) = some (.bool true, rest) := by
  simp [value?, skip, isSpace, word?, words]

theorem value?_false : value? (n + 1) ("false".toList ++ rest) = some (.bool false, rest) := by
  simp [value?, skip, isSpace, word?, words]

theorem quoted_append (s : String) (rest : List Char) :
    quoted s ++ rest = '"' :: (s.toList.flatMap escapeChar ++ '"' :: rest) := by
  simp [quoted]

theorem value?_quoted (s : String) :
    value? (n + 1) (quoted s ++ rest) = some (.string s, rest) := by
  rw [quoted_append, value?, skip_cons (by decide)]
  show (string? _).map _ = _
  rw [string?_quoted]
  rfl

/-! ### Items and members -/

variable {data : Data} {more : List Char}

/-- A bracket that does not close at once is followed by items. -/
theorem value?_array {items : List Data}
    (first : ∃ c more, cs = c :: more ∧ isSpace c = false ∧ c ≠ ']')
    (read : items? n cs = some (items, rest)) :
    value? (n + 1) ('[' :: cs) = some (.array items, rest) := by
  obtain ⟨c, more, rfl, visible, noEnd⟩ := first
  rw [value?, skip_cons (by decide)]
  split
  case h_1 quote => exact absurd (List.cons.inj quote).1 (by decide)
  case h_2 inner bracket =>
    obtain rfl := (List.cons.inj bracket).2
    rw [skip_cons visible]
    split
    case h_1 close => exact absurd (List.cons.inj close).1 noEnd
    case h_2 =>
      rw [read]
      rfl
  case h_3 brace => exact absurd (List.cons.inj brace).1 (by decide)
  case h_4 noBracket _ => exact absurd rfl (noBracket (c :: more))

/-- A brace that does not close at once is followed by members. -/
theorem value?_object {members : List (String × Data)} (first : ∃ more, cs = '"' :: more)
    (read : members? n cs = some (members, rest)) :
    value? (n + 1) ('\x7b' :: cs) = some (.object members, rest) := by
  obtain ⟨more, rfl⟩ := first
  rw [value?, skip_cons (by decide)]
  split
  case h_1 quote => exact absurd (List.cons.inj quote).1 (by decide)
  case h_2 bracket => exact absurd (List.cons.inj bracket).1 (by decide)
  case h_3 inner brace =>
    obtain rfl := (List.cons.inj brace).2
    rw [skip_cons (by decide)]
    split
    case h_1 close => exact absurd (List.cons.inj close).1 (by decide)
    case h_2 =>
      rw [read]
      rfl
  case h_4 other => exact absurd rfl (other ('"' :: more))

theorem items?_last (read : value? n cs = some (data, ']' :: rest)) :
    items? (n + 1) cs = some ([data], rest) := by
  rw [items?, read, Option.bind_eq_bind, Option.bind_some]
  dsimp only
  rw [skip_cons (by decide)]
  rfl

theorem items?_next {items : List Data} (read : value? n cs = some (data, ',' :: more))
    (others : items? n more = some (items, rest)) :
    items? (n + 1) cs = some (data :: items, rest) := by
  rw [items?, read, Option.bind_eq_bind, Option.bind_some]
  dsimp only
  rw [skip_cons (by decide)]
  show (items? n more).bind _ = _
  rw [others]
  rfl

/-- A key and a colon are followed by the value of the member. -/
theorem members?_key (key : String) (cs : List Char) :
    members? (n + 1) (quoted key ++ ':' :: cs) =
      (value? n cs).bind fun (item, rest) =>
        match skip rest with
        | '\x7d' :: rest => some ([(key, item)], rest)
        | ',' :: rest => (members? n rest).bind fun (members, rest) =>
            some ((key, item) :: members, rest)
        | _ => none := by
  rw [quoted_append, members?, skip_cons (by decide)]
  show (string? _).bind _ = _
  rw [string?_quoted, Option.bind_some]
  dsimp only
  rw [skip_cons (by decide)]
  rfl

theorem members?_last (key : String) (read : value? n cs = some (data, '\x7d' :: rest)) :
    members? (n + 1) (quoted key ++ ':' :: cs) = some ([(key, data)], rest) := by
  rw [members?_key, read, Option.bind_some]
  dsimp only
  rw [skip_cons (by decide)]
  rfl

theorem members?_next (key : String) {members : List (String × Data)}
    (read : value? n cs = some (data, ',' :: more))
    (others : members? n more = some (members, rest)) :
    members? (n + 1) (quoted key ++ ':' :: cs) = some ((key, data) :: members, rest) := by
  rw [members?_key, read, Option.bind_some]
  dsimp only
  rw [skip_cons (by decide)]
  show (members? n more).bind _ = _
  rw [others]
  rfl

/-! ## Documents -/

/-- Every value is written with some character, of which no space and no closing bracket is the
first. -/
theorem exists_lead_of_compact (j : Json) :
    ∃ c more, compact j = c :: more ∧ isSpace c = false ∧ c ≠ ']' := by
  have number {cs : List Char} {x : ℚ} (read : number? (cs ++ []) = some (x, [])) :
      ∃ c more, cs = c :: more ∧ isSpace c = false ∧ c ≠ ']' := by
    rw [List.append_nil] at read
    obtain ⟨c, more, rfl, lead⟩ := exists_lead_of_number? read
    exact ⟨c, more, rfl, isSpace_lead lead, lead_ne lead (by decide) (by decide)⟩
  have ends : Ends [] := by simp [Ends]
  cases j with
  | bool b => cases b <;> exact ⟨_, _, rfl, by decide, by decide⟩
  | int m => exact number (number?_text m ends)
  | float negative size => exact number (number?_floatText negative size ends)
  | string s => exact ⟨'"', _, rfl, by decide, by decide⟩
  | array items => exact ⟨'[', _, by rw [compact]; rfl, by decide, by decide⟩
  | object members => exact ⟨'\x7b', _, by rw [compact]; rfl, by decide, by decide⟩

/-- The text of items begins with that of the first one. -/
theorem exists_append_of_compactItems (item : Json) (others : List Json) :
    ∃ tail, compactItems (item :: others) = compact item ++ tail := by
  cases others with
  | nil => exact ⟨[], by rw [compactItems, List.append_nil]⟩
  | cons next others => exact ⟨_, by rw [compactItems]⟩

/-- The text of members begins with the first key. -/
theorem exists_append_of_compactMembers (key : String) (item : Json)
    (others : List (String × Json)) :
    ∃ tail, compactMembers ((key, item) :: others) = quoted key ++ tail := by
  cases others with
  | nil => exact ⟨_, by rw [compactMembers]⟩
  | cons next others => exact ⟨_, by rw [compactMembers, List.append_assoc]⟩

mutual

/-- A document within a text is read as what it says. -/
theorem value?_compact : (j : Json) → {n : Nat} → {rest : List Char} → (compact j).length ≤ n →
    Closes rest → value? n (compact j ++ rest) = some (j.data, rest)
  | j, 0, _, bound, _ => by
      obtain ⟨c, more, text, -⟩ := exists_lead_of_compact j
      rw [text] at bound
      cases bound
  | .bool true, n + 1, _, _, _ => value?_true
  | .bool false, n + 1, _, _, _ => value?_false
  | .int m, n + 1, _, _, closes => value?_number (number?_text m closes.ends)
  | .float negative size, n + 1, _, _, closes =>
      value?_number (number?_floatText negative size closes.ends)
  | .string s, n + 1, _, _, _ => value?_quoted s
  | .array [], n + 1, _, _, _ => by
      rw [compact, compactItems]
      rfl
  | .array (item :: others), n + 1, rest, bound, _ => by
      rw [compact] at bound ⊢
      have fits : (compactItems (item :: others)).length < n := by
        simp only [List.cons_append, List.length_cons, List.length_append, List.length_nil] at bound
        omega
      rw [List.cons_append, List.cons_append, List.append_assoc, List.singleton_append]
      apply value?_array
      · obtain ⟨c, more, lead, visible, noEnd⟩ := exists_lead_of_compact item
        obtain ⟨tail, text⟩ := exists_append_of_compactItems item others
        refine ⟨c, more ++ tail ++ ']' :: rest, ?_, visible, noEnd⟩
        rw [text, lead]
        rfl
      · exact items?_compact (item :: others) (List.cons_ne_nil item others) fits
  | .object [], n + 1, _, _, _ => by
      rw [compact, compactMembers]
      rfl
  | .object ((key, item) :: others), n + 1, rest, bound, _ => by
      rw [compact] at bound ⊢
      have fits : (compactMembers ((key, item) :: others)).length < n := by
        simp only [List.cons_append, List.length_cons, List.length_append, List.length_nil] at bound
        omega
      rw [List.cons_append, List.cons_append, List.append_assoc, List.singleton_append]
      apply value?_object
      · obtain ⟨tail, text⟩ := exists_append_of_compactMembers key item others
        rw [text, List.append_assoc, quoted_append]
        exact ⟨_, rfl⟩
      · exact members?_compact ((key, item) :: others) (List.cons_ne_nil _ others) fits

theorem items?_compact : (items : List Json) → items ≠ [] → {n : Nat} → {rest : List Char} →
    (compactItems items).length < n →
    items? n (compactItems items ++ ']' :: rest) = some (itemsData items, rest)
  | [], noItems, _, _, _ => absurd rfl noItems
  | _ :: _, _, 0, _, bound => by simp at bound
  | [item], _, n + 1, rest, bound => by
      rw [compactItems] at bound ⊢
      apply items?_last
      exact value?_compact item (Nat.le_of_lt_succ bound) (closes_cons (.inr (.inl rfl)))
  | item :: next :: others, _, n + 1, rest, bound => by
      rw [compactItems, List.length_append, List.length_cons] at bound
      rw [compactItems, List.append_assoc, List.cons_append]
      apply items?_next
      · exact value?_compact item (by omega) (closes_cons (.inl rfl))
      · exact items?_compact (next :: others) (List.cons_ne_nil next others) (by omega)

theorem members?_compact : (members : List (String × Json)) → members ≠ [] → {n : Nat} →
    {rest : List Char} → (compactMembers members).length < n →
    members? n (compactMembers members ++ '\x7d' :: rest) = some (membersData members, rest)
  | [], noMembers, _, _, _ => absurd rfl noMembers
  | _ :: _, _, 0, _, bound => by simp at bound
  | [(key, item)], _, n + 1, rest, bound => by
      rw [compactMembers, List.length_append, List.length_cons] at bound
      rw [compactMembers, List.append_assoc, List.cons_append]
      apply members?_last
      exact value?_compact item (by omega) (closes_cons (.inr (.inr rfl)))
  | (key, item) :: next :: others, _, n + 1, rest, bound => by
      simp only [compactMembers, List.length_append, List.length_cons] at bound
      rw [compactMembers, List.append_assoc, List.append_assoc, List.cons_append, List.cons_append]
      apply members?_next
      · exact value?_compact item (by omega) (closes_cons (.inl rfl))
      · exact members?_compact (next :: others) (List.cons_ne_nil next others) (by omega)

end

end Reader

/-- **Documents are read back.** The compact text of a document is one value, which says what the
document does. -/
theorem read?_text (j : Json) : read? j.text = some j.data := by
  have closes : Reader.Closes [] := by simp [Reader.Closes]
  have fits : (compact j).length ≤ j.text.length + 1 := by simp [text]
  have read := Reader.value?_compact j fits closes
  rw [List.append_nil] at read
  have chars : j.text.toList = compact j := String.toList_ofList
  unfold read?
  rw [chars, read]
  rfl

end Json

end EntityFlow
