import EntityFlow.Value.Literal

/-!
# Values as they are written

Strings, integers, decimals, truth values, sequences and mappings have a written form in sources:
`Value.source`. The texts of strings and numbers are read back as what they were written for
(`Text.unquote_quoted`, `Integer.read?_text`, `Decimal.read?_plain`), with two provisos for decimals
that every decimal of a source keeps: it has at least one decimal place, and the number of places
fits into a signed word (`Value.Written`).
-/

namespace EntityFlow

/-! ## Quoted texts -/

namespace Text

/-- The text with a backslash in front of every quote. -/
def escape (quote : Char) : List Char → List Char
  | [] => []
  | c :: rest => if c = quote then '\\' :: c :: escape quote rest else c :: escape quote rest

/-- The text between quotes. -/
def quoted (quote : Char) (cs : List Char) : List Char := quote :: escape quote cs ++ [quote]

section Escapes

variable {quote : Char}

theorem unescape_pair (quote : Char) (cs : List Char) :
    unescape quote ('\\' :: quote :: cs) = quote :: unescape quote cs := by
  rw [unescape, if_pos rfl]

/-- A character that is no backslash in front of a quote stays. -/
theorem unescape_cons {c : Char} {cs : List Char} (single : c = '\\' → cs.head? ≠ some quote) :
    unescape quote (c :: cs) = c :: unescape quote cs := by
  by_cases backslash : c = '\\'
  · subst backslash
    cases cs with
    | nil => rfl
    | cons d rest =>
        have other : d ≠ quote := fun same => single rfl (congrArg some same)
        rw [unescape, if_neg other]
  · rw [unescape]
    · exact fun same => absurd same backslash
    · exact fun _ _ same => absurd same backslash

theorem head?_escape (proper : quote ≠ '\\') (cs : List Char) :
    (escape quote cs).head? ≠ some quote := by
  cases cs with
  | nil => exact nofun
  | cons c rest =>
      unfold escape
      split
      · exact fun same => proper (Option.some.inj same).symm
      · rename_i other
        exact fun same => other (Option.some.inj same)

theorem unescape_escape (proper : quote ≠ '\\') (cs : List Char) :
    unescape quote (escape quote cs) = cs := by
  induction cs with
  | nil => rfl
  | cons c rest ih =>
      unfold escape
      split
      · rename_i isQuote
        rw [isQuote, unescape_pair, ih]
      · rw [unescape_cons fun _ => head?_escape proper rest, ih]

/-- Between quotes stands the inside with its escapes. -/
theorem unquote_between (quote : Char) (inside : List Char) :
    unquote quote (quote :: (inside ++ [quote])) = unescape quote inside := by
  have front : dropFront [quote] (quote :: (inside ++ [quote])) = inside ++ [quote] := by
    simp [dropFront]
  have back : dropBack [quote] (inside ++ [quote]) = inside := by
    unfold dropBack
    rw [if_pos (List.isSuffixOf_iff_suffix.mpr (List.suffix_append _ _))]
    simp
  unfold unquote
  rw [front, back]

/-- A text between quotes stands for the text. -/
theorem unquote_quoted (proper : quote ≠ '\\') (cs : List Char) :
    unquote quote (quoted quote cs) = cs :=
  (unquote_between quote (escape quote cs)).trans (unescape_escape proper cs)

end Escapes

end Text

/-! ## Integers -/

namespace Integer

theorem isDigit_of_mem_digits {n : Nat} : ∀ c ∈ digits n, c.isDigit = true :=
  fun _ member => Nat.isDigit_of_mem_toDigits (by decide) (by decide) member

theorem ofDigits_digits (n : Nat) : ofDigits (digits n) = n :=
  Nat.ofDigitChars_toDigits (by decide) (by decide)

theorem ofDigits_zeros (count : Nat) (cs : List Char) :
    ofDigits (List.replicate count '0' ++ cs) = ofDigits cs := by
  induction count with
  | zero => rfl
  | succ count ih => exact ih

theorem ne_of_isDigit {c d : Char} (digit : c.isDigit = true) (other : d.isDigit = false) :
    c ≠ d := by
  intro same
  rw [same, other] at digit
  cases digit

theorem readDigits?_eq {cs : List Char} (some : cs ≠ []) (digits : ∀ c ∈ cs, c.isDigit = true) :
    readDigits? cs = .some (ofDigits cs) := by
  obtain ⟨c, rest, rfl⟩ := List.exists_cons_of_ne_nil some
  have proper : ∀ d ∈ c :: rest, d ≠ '_' := fun d member =>
    ne_of_isDigit (digits d member) (by decide)
  have plain : (c :: rest).filter (· != '_') = c :: rest := by
    rw [List.filter_eq_self]
    intro d member
    exact bne_iff_ne.mpr (proper d member)
  rw [readDigits?]
  · rw [plain, if_pos (List.all_eq_true.mpr digits)]
  · nofun
  · intro more underscore
    cases underscore
    exact proper '_' List.mem_cons_self rfl

/-- Digits, with a minus sign in front of those of a negative number. -/
def signed (n : Int) (cs : List Char) : List Char := if n < 0 then '-' :: cs else cs

theorem signed_append (n : Int) (cs ds : List Char) : signed n (cs ++ ds) = signed n cs ++ ds := by
  unfold signed
  split <;> rfl

theorem forall_mem_signed {p : Char → Prop} {n : Int} {cs : List Char} (minus : p '-')
    (all : ∀ c ∈ cs, p c) : ∀ c ∈ signed n cs, p c := by
  unfold signed
  split
  · exact List.forall_mem_cons.mpr ⟨minus, all⟩
  · exact all

theorem read?_signed {n : Int} {cs : List Char} (some : cs ≠ [])
    (digits : ∀ c ∈ cs, c.isDigit = true) (value : ofDigits cs = n.natAbs) :
    read? (signed n cs) = .some n := by
  have read := readDigits?_eq some digits
  unfold signed
  split
  · rw [read?, read, value]
    show Option.some (-(n.natAbs : Int)) = .some n
    congr 1
    omega
  · obtain ⟨c, rest, rfl⟩ := List.exists_cons_of_ne_nil some
    have digit := digits c List.mem_cons_self
    rw [read?, read, value]
    · show Option.some (n.natAbs : Int) = .some n
      congr 1
      omega
    · intro more minus
      cases minus
      cases digit
    · intro more plus
      cases plus
      cases digit

theorem text_toList (n : Int) : (text n).toList = signed n (digits n.natAbs) := by
  cases n with
  | ofNat m => simp [text, signed]
  | negSucc m => simp [text, signed]

theorem read?_text (n : Int) : read? (text n).toList = some n := by
  rw [text_toList]
  exact read?_signed Nat.toDigits_ne_nil isDigit_of_mem_digits (ofDigits_digits _)

end Integer

/-! ## Decimals -/

namespace Decimal

/-- The text of a decimal with as many places as its scale says, and no exponent. -/
def plain (d : Decimal) : List Char :=
  Integer.signed d.coefficient (plainDigits (Integer.digits d.coefficient.natAbs) d.scale)

/-- The digits of a decimal with places: those in front of the point and those behind it. -/
theorem plainDigits_eq (n places : Nat) :
    ∃ whole fraction, plainDigits (Integer.digits n) (Int.ofNat (places + 1)) =
        whole ++ '.' :: fraction ∧
      whole ≠ [] ∧ fraction.length = places + 1 ∧ (∀ c ∈ whole ++ fraction, c.isDigit = true) ∧
      Integer.ofDigits (whole ++ fraction) = n := by
  generalize known : List.replicate (places + 1 + 1 - (Integer.digits n).length) '0' ++
    Integer.digits n = padded
  have length : places + 1 < padded.length := by
    rw [← known, List.length_append, List.length_replicate]
    omega
  refine ⟨padded.take (padded.length - (places + 1)), padded.drop (padded.length - (places + 1)),
    ?_, ?_, ?_, ?_, ?_⟩
  · rw [← known]
    rfl
  · rw [Ne, List.take_eq_nil_iff, ← List.length_eq_zero_iff]
    omega
  · rw [List.length_drop]
    omega
  · rw [List.take_append_drop, ← known]
    intro c member
    rcases List.mem_append.mp member with zero | digit
    · rw [List.eq_of_mem_replicate zero]
      decide
    · exact Integer.isDigit_of_mem_digits c digit
  · rw [List.take_append_drop, ← known, Integer.ofDigits_zeros, Integer.ofDigits_digits]

/-- The text of a decimal is a sign, digits, a point and as many digits as its scale says. -/
theorem plain_eq {d : Decimal} (places : 1 ≤ d.scale) :
    ∃ whole fraction, d.plain = Integer.signed d.coefficient (whole ++ '.' :: fraction) ∧
      whole ≠ [] ∧ fraction ≠ [] ∧ (fraction.length : Int) = d.scale ∧
      (∀ c ∈ whole ++ fraction, c.isDigit = true) ∧
      Integer.ofDigits (whole ++ fraction) = d.coefficient.natAbs := by
  obtain ⟨coefficient, scale⟩ := d
  obtain ⟨more, rfl⟩ : ∃ more : Nat, scale = Int.ofNat (more + 1) := by
    refine ⟨(scale - 1).toNat, ?_⟩
    simp only at places
    simp only [Int.ofNat_eq_natCast]
    omega
  obtain ⟨whole, fraction, digits, wholeSome, length, areDigits, value⟩ :=
    plainDigits_eq coefficient.natAbs more
  refine ⟨whole, fraction, ?_, wholeSome, ?_, ?_, areDigits, value⟩
  · unfold plain
    rw [digits]
  · rw [← List.length_pos_iff, length]
    exact Nat.succ_pos _
  · rw [length]
    rfl

theorem splitBefore_append {test : Char → Bool} {front rest : List Char}
    (none : ∀ c ∈ front, test c = false) (stops : rest.head?.all test = true) :
    splitBefore test (front ++ rest) = (front, rest) := by
  have passes : ∀ c ∈ front, (!test c) = true := fun c member => by rw [none c member]; rfl
  unfold splitBefore
  rw [List.takeWhile_append_of_pos passes, List.dropWhile_append_of_pos passes]
  cases rest with
  | nil => simp
  | cons c rest =>
      have holds : test c = true := by simpa using stops
      simp [holds]

/-- Digits with a point among them are read as a decimal with a place for each digit behind it. -/
theorem read?_signed_point {n : Int} {whole fraction : List Char} (some : whole ≠ [])
    (digits : ∀ c ∈ whole ++ fraction, c.isDigit = true)
    (value : Integer.ofDigits (whole ++ fraction) = n.natAbs)
    (fits : Integer.fitsWord fraction.length = true) :
    read? (Integer.signed n (whole ++ '.' :: fraction)) = .some ⟨n, fraction.length⟩ := by
  obtain ⟨wholeDigits, fractionDigits⟩ := List.forall_mem_append.mp digits
  have other {c d : Char} (digit : c.isDigit = true) (no : d.isDigit = false) : (c == d) = false :=
    beq_eq_false_iff_ne.mpr (Integer.ne_of_isDigit digit no)
  have noPoint : ∀ c ∈ Integer.signed n whole, (c == '.') = false :=
    Integer.forall_mem_signed rfl fun c member => other (wholeDigits c member) (by decide)
  have noMark : ∀ c ∈ Integer.signed n (whole ++ '.' :: fraction),
      (c == 'e' || c == 'E') = false := by
    have digit (c : Char) (isDigit : c.isDigit = true) : (c == 'e' || c == 'E') = false := by
      rw [other isDigit (by decide), other isDigit (by decide)]
      rfl
    refine Integer.forall_mem_signed rfl (List.forall_mem_append.mpr ⟨?_, ?_⟩)
    · exact fun c member => digit c (wholeDigits c member)
    · exact List.forall_mem_cons.mpr ⟨rfl, fun c member => digit c (fractionDigits c member)⟩
  have count : (fraction.filter (· != '_')).length = fraction.length := by
    rw [List.filter_eq_self.mpr]
    intro c member
    exact bne_iff_ne.mpr (Integer.ne_of_isDigit (fractionDigits c member) (by decide))
  have base : splitBefore _ (_ ++ []) = _ := splitBefore_append noMark rfl
  rw [List.append_nil] at base
  have point : splitBefore (· == '.') (Integer.signed n whole ++ '.' :: fraction) = _ :=
    splitBefore_append noPoint rfl
  have joined : Integer.read? (Integer.signed n whole ++ fraction) = .some n := by
    rw [← Integer.signed_append]
    exact Integer.read?_signed (by simp [some]) digits value
  have tail : ('.' :: fraction).drop 1 = fraction := rfl
  -- a whole text without a mark has the exponent zero
  have fitsPlaces : Integer.fitsWord ((fraction.length : Int) - 0) = true := by
    simpa only [Int.sub_zero] using fits
  unfold read?
  rw [base, Integer.signed_append]
  dsimp only
  rw [point]
  dsimp only
  rw [tail, joined, count, Option.bind_eq_bind, Option.bind_some, Option.bind_some,
    if_pos fitsPlaces, Int.sub_zero]

/-- A decimal with places is read back with as many places. -/
theorem read?_plain {d : Decimal} (places : 1 ≤ d.scale)
    (fits : Integer.fitsWord d.scale = true) : read? d.plain = some d := by
  obtain ⟨whole, fraction, text, wholeSome, _, length, digits, value⟩ := plain_eq places
  rw [← length] at fits
  rw [text, read?_signed_point wholeSome digits value fits, length]

end Decimal

/-! ## Values -/

namespace Value

mutual

/-- A value in the syntax of sources. -/
def source : Value → List Char
  | .string s => Text.quoted '"' s.toList
  | .integer n => (Integer.text n).toList
  | .decimal d => d.plain
  | .boolean b => (if b then "true" else "false").toList
  | .sequence items => '[' :: itemsSource [] items ++ [']']
  | .mapping entries => '\x7b' :: entriesSource [] entries ++ ['\x7d']

/-- Items in the syntax of sources, the first one after `lead` and every other one after a comma. -/
def itemsSource (lead : List Char) : List Value → List Char
  | [] => []
  | item :: rest => lead ++ item.source ++ itemsSource [',', ' '] rest

/-- Entries in the syntax of sources, the first one after `lead` and every other one after a
comma. -/
def entriesSource (lead : List Char) : List (String × Value) → List Char
  | [] => []
  | (key, item) :: rest =>
      lead ++ Text.quoted '"' key.toList ++ [':', ' '] ++ item.source ++
        entriesSource [',', ' '] rest

end

/-- A text that needs no escape but for quotes. -/
def Plain (s : String) : Prop := '\n' ∉ s.toList ∧ '\\' ∉ s.toList

instance (s : String) : Decidable (Plain s) := inferInstanceAs (Decidable (_ ∧ _))

/-- A value that can be written in a source: its strings and keys hold no line end and no backslash,
its decimals have places, as many as a signed word counts, and its keys are distinct. -/
inductive Written : Value → Prop
  | string {s} (plain : Plain s) : Written (.string s)
  | integer {n} : Written (.integer n)
  | decimal {d : Decimal} (places : 1 ≤ d.scale) (fits : Integer.fitsWord d.scale = true) :
      Written (.decimal d)
  | boolean {b} : Written (.boolean b)
  | sequence {items} (each : ∀ item ∈ items, Written item) : Written (.sequence items)
  | mapping {entries} (plain : ∀ entry ∈ entries, Plain entry.1)
      (distinct : (entries.map (·.1)).Nodup) (each : ∀ entry ∈ entries, Written entry.2) :
      Written (.mapping entries)

/-- A quote, a negative integer, places and an empty mapping. -/
example : String.ofList (source (.sequence [.string "\"", .integer (-7),
    .mapping [("a", .decimal ⟨-50, 2⟩), ("b", .mapping [])]])) =
    "[\"\\\"\", -7, \x7b\"a\": -0.50, \"b\": \x7b\x7d\x7d]" := by
  decide +kernel

end Value

end EntityFlow
