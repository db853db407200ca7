import Mathlib.Algebra.Order.Field.Rat
import Mathlib.Tactic.FieldSimp
import Mathlib.Tactic.Ring
import EntityFlow.Json.Basic
import EntityFlow.Proofs.Json.Reader
import EntityFlow.Proofs.Value.Written

/-!
# Reading back numbers

Integers are written with their digits, and floating point numbers as a decimal: with a point, with
zeros, or with an exponent. In each form a reader finds the exact value of the decimal that is
written (`number?_text`, `size?_floatDigits`). All forms are digits without leading zeros, a
fraction that may be missing and an exponent that may be missing, so that one lemma on these three
parts carries them (`size?_parts`).
-/

namespace EntityFlow

/-! ## Digits -/

namespace Integer

/-- The first digit of a number that is not zero is not zero. -/
theorem head?_digits {n : Nat} (positive : 0 < n) : (digits n).head? ≠ some '0' := by
  induction n using Nat.strongRecOn with
  | ind n ih =>
    unfold digits
    by_cases small : n < 10
    · rw [Nat.toDigits_of_lt_base small]
      have chars : ∀ d < 10, 0 < d → Nat.digitChar d ≠ '0' := by decide
      simpa using chars n small positive
    · have large : 10 ≤ n := by omega
      rw [Nat.toDigits_of_base_le (by decide) large,
        List.head?_append_of_ne_nil _ Nat.toDigits_ne_nil]
      exact ih (n / 10) (by omega) (by omega)

/-- A digit more is ten times the number and the digit. -/
theorem ofDigits_zeros_behind (cs : List Char) (count : Nat) :
    ofDigits (cs ++ List.replicate count '0') = ofDigits cs * 10 ^ count := by
  induction count with
  | zero => simp
  | succ count ih =>
    rw [List.replicate_succ', ← List.append_assoc]
    unfold ofDigits at ih ⊢
    rw [List.foldl_append, ih]
    simp [pow_succ]
    ring

end Integer

namespace Json.Reader

open Integer

variable {rest tail whole fraction ds : List Char}

theorem digits_append (all : ∀ c ∈ ds, c.isDigit = true)
    (stops : ∀ c ∈ rest.head?, c.isDigit = false) : Reader.digits (ds ++ rest) = (ds, rest) := by
  unfold Reader.digits
  rw [List.takeWhile_append_of_pos all, List.dropWhile_append_of_pos all]
  cases rest with
  | nil => simp
  | cons c rest =>
    have stop : c.isDigit = false := stops c rfl
    simp [stop]

/-! ## The three parts -/

/-- Digits that may stand in front of the point. -/
structure Whole (ds : List Char) : Prop where
  some : ds ≠ []
  all : ∀ c ∈ ds, c.isDigit = true
  lead : ds.head? = .some '0' → ds = ['0']

theorem whole_digits (n : Nat) : Whole (Integer.digits n) where
  some := Nat.toDigits_ne_nil
  all := isDigit_of_mem_digits
  lead zero := by
    rcases Nat.eq_zero_or_pos n with rfl | positive
    · rfl
    · exact absurd zero (head?_digits positive)

theorem whole?_append (whole : Whole ds) (stops : ∀ c ∈ rest.head?, c.isDigit = false) :
    whole? (ds ++ rest) = some (ds, rest) := by
  obtain ⟨c, more, rfl⟩ := List.exists_cons_of_ne_nil whole.some
  unfold whole?
  rw [digits_append whole.all stops]
  split
  case h_1 none => simp at none
  case h_2 d others rest lead =>
    obtain ⟨⟨rfl, rfl⟩, rfl⟩ : (c = '0' ∧ more = d :: others) ∧ _ := by simpa using lead
    exact absurd (whole.lead rfl) (by simp)
  case h_3 => rfl

/-- A point and digits, or nothing. -/
def fractionText (fraction : List Char) : List Char :=
  if fraction = [] then [] else '.' :: fraction

theorem fraction?_append (all : ∀ c ∈ fraction, c.isDigit = true)
    (stops : ∀ c ∈ tail.head?, c.isDigit = false ∧ c ≠ '.') :
    fraction? (fractionText fraction ++ tail) = some (fraction, tail) := by
  cases fraction with
  | nil =>
    show fraction? tail = _
    unfold fraction?
    split
    case h_1 rest => exact absurd rfl (stops '.' rfl).2
    case h_2 => rfl
  | cons c more =>
    show fraction? ('.' :: (c :: more ++ tail)) = _
    rw [fraction?, digits_append all fun d head => (stops d head).1]

/-- What may follow a number: nothing that would continue it. -/
def Ends (rest : List Char) : Prop :=
  ∀ c ∈ rest.head?, c.isDigit = false ∧ c ≠ '.' ∧ c ≠ 'e' ∧ c ≠ 'E'

theorem Ends.point (ends : Ends rest) : ∀ c ∈ rest.head?, c.isDigit = false ∧ c ≠ '.' :=
  fun c head => ⟨(ends c head).1, (ends c head).2.1⟩

theorem Ends.digit (ends : Ends rest) : ∀ c ∈ rest.head?, c.isDigit = false :=
  fun c head => (ends c head).1

/-- No exponent is the exponent zero. -/
theorem exponent?_none (ends : Ends rest) : exponent? rest = some (0, rest) := by
  cases rest with
  | nil => rfl
  | cons c more =>
    obtain ⟨_, _, small, large⟩ := ends c rfl
    unfold exponent?
    exact if_neg (by simp [small, large])

/-- An exponent as it is written. -/
def exponentText (x : Int) : List Char :=
  'e' :: (if x < 0 then [] else ['+']) ++ (Integer.text x).toList

theorem exponentSign_text (x : Int) (rest : List Char) :
    exponentSign ((if x < 0 then [] else ['+']) ++ (Integer.text x).toList ++ rest) =
      (decide (x < 0), Integer.digits x.natAbs ++ rest) := by
  rw [text_toList]
  unfold signed
  split
  · rename_i negative
    simp [exponentSign, negative]
  · rename_i positive
    simp [exponentSign, positive]

theorem exponent?_text (x : Int) (ends : Ends rest) :
    exponent? (exponentText x ++ rest) = some (x, rest) := by
  show exponent? ('e' :: ((if x < 0 then [] else ['+']) ++ (Integer.text x).toList ++ rest)) = _
  unfold exponent?
  dsimp only
  rw [if_pos (.inl rfl), exponentSign_text]
  dsimp only
  rw [digits_append isDigit_of_mem_digits ends.digit]
  split
  case h_1 none => exact absurd (congrArg Prod.fst none) Nat.toDigits_ne_nil
  case h_2 found others _ same =>
    obtain ⟨rfl, rfl⟩ := Prod.mk.inj same
    rw [ofDigits_digits]
    by_cases negative : x < 0
    · simp only [negative, decide_true, if_true, Option.some.injEq, Prod.mk.injEq, and_true]
      omega
    · simp only [negative, decide_false, Option.some.injEq, Prod.mk.injEq, and_true]
      simp
      omega

/-- **The three parts of a number.** Its value is that of all digits, with the point moved in front
of the fraction and then by the exponent. -/
theorem size?_parts {exponent : Int} (wholeDigits : Whole whole)
    (all : ∀ c ∈ fraction, c.isDigit = true)
    (stops : ∀ c ∈ tail.head?, c.isDigit = false ∧ c ≠ '.')
    (read : exponent? tail = some (exponent, rest)) :
    size? (whole ++ (fractionText fraction ++ tail)) =
      some ((ofDigits (whole ++ fraction) : ℚ) * 10 ^ (exponent - fraction.length), rest) := by
  have behind : ∀ c ∈ (fractionText fraction ++ tail).head?, c.isDigit = false := by
    cases fraction with
    | nil => exact fun c head => (stops c head).1
    | cons d more =>
      intro c head
      obtain rfl : '.' = c := by simpa [fractionText] using head
      rfl
  unfold size?
  rw [whole?_append wholeDigits behind, Option.bind_eq_bind, Option.bind_some]
  dsimp only
  rw [fraction?_append all stops, Option.bind_eq_bind, Option.bind_some]
  dsimp only
  rw [read]
  rfl

/-! ## Integers -/

theorem size?_digits (n : Nat) (ends : Ends rest) :
    size? (Integer.digits n ++ rest) = some ((n : ℚ), rest) := by
  have none : ∀ c ∈ ([] : List Char), c.isDigit = true := by simp
  have parts := size?_parts (whole_digits n) none ends.point (exponent?_none ends)
  simpa [fractionText, ofDigits_digits] using parts

/-- A number without a sign begins with a digit. -/
theorem exists_digit_of_size? {cs : List Char} {found : ℚ × List Char}
    (read : size? cs = some found) : ∃ c more, cs = c :: more ∧ c.isDigit = true := by
  cases cs with
  | nil => cases read
  | cons c more =>
    cases digit : c.isDigit with
    | true => exact ⟨c, more, rfl, digit⟩
    | false =>
      have none : whole? (c :: more) = none := by simp [whole?, Reader.digits, digit]
      simp [size?, none] at read

theorem number?_eq_of_size? {cs : List Char} {found : ℚ × List Char}
    (read : size? cs = some found) : number? cs = some found := by
  obtain ⟨c, more, rfl, digit⟩ := exists_digit_of_size? read
  rw [number?]
  · exact read
  · intro others minus
    obtain ⟨rfl, -⟩ := List.cons.inj minus
    cases digit

theorem number?_minus {cs : List Char} {x : ℚ} (read : size? cs = some (x, rest)) :
    number? ('-' :: cs) = some (-x, rest) := by
  rw [number?, read]
  rfl

/-- **Integers are read back.** -/
theorem number?_text (n : Int) (ends : Ends rest) :
    number? ((Integer.text n).toList ++ rest) = some ((n : ℚ), rest) := by
  have read := size?_digits n.natAbs ends
  rw [text_toList]
  unfold signed
  split
  · rename_i negative
    have size : (n.natAbs : Int) = -n := by omega
    rw [List.cons_append, number?_minus read, ← Int.cast_natCast, size, Int.cast_neg, neg_neg]
  · rename_i positive
    have size : (n.natAbs : Int) = n := by omega
    rw [number?_eq_of_size? read, ← Int.cast_natCast, size]

/-! ## Floating point numbers -/

/-- Zeros stand in front of digits only where these do not reach the place in front of the point,
and then the last of the zeros is the only digit there. -/
theorem whole_of_plainDigits {n places : Nat} (positive : 0 < n)
    (text : Decimal.plainDigits (Integer.digits n) (Int.ofNat (places + 1)) =
      whole ++ '.' :: fraction)
    (length : fraction.length = places + 1) (some : whole ≠ [])
    (all : ∀ c ∈ whole, c.isDigit = true) : Whole whole := by
  refine ⟨some, all, ?_⟩
  intro zero
  generalize known : List.replicate (places + 1 + 1 - (Integer.digits n).length) '0' ++
    Integer.digits n = padded
  have cut : whole ++ '.' :: fraction =
      padded.take (padded.length - (places + 1)) ++
        '.' :: padded.drop (padded.length - (places + 1)) := by
    rw [← text, ← known]
    rfl
  have count : padded.length =
      (places + 1 + 1 - (Integer.digits n).length) + (Integer.digits n).length := by
    rw [← known, List.length_append, List.length_replicate]
  have front : whole = padded.take (padded.length - (places + 1)) := by
    refine (List.append_inj' cut ?_).1
    simp only [List.length_cons, List.length_drop, length]
    omega
  cases short : places + 1 + 1 - (Integer.digits n).length with
  | zero =>
    -- all digits are those of the number, and these do not begin with a zero
    rw [short, List.replicate_zero, List.nil_append] at known
    rw [front, List.head?_take, ← known] at zero
    split at zero
    · cases zero
    · exact absurd zero (head?_digits positive)
  | succ more =>
    have single : padded.length - (places + 1) = 1 := by omega
    rw [front, single, ← known, short, List.replicate_succ]
    rfl

/-- A number with places: its digits in front of the point and those behind it. -/
theorem size?_places {n : Nat} (positive : 0 < n) (places : Nat) (ends : Ends rest) :
    size? (Decimal.plainDigits (Integer.digits n) (Int.ofNat (places + 1)) ++ rest) =
      some ((n : ℚ) * 10 ^ (-(places + 1 : Int)), rest) := by
  obtain ⟨whole, fraction, text, some, length, all, value⟩ := Decimal.plainDigits_eq n places
  obtain ⟨wholeAll, fractionAll⟩ := List.forall_mem_append.mp all
  have isWhole : Whole whole := whole_of_plainDigits positive text length some wholeAll
  have parts := size?_parts isWhole fractionAll ends.point (exponent?_none ends)
  have point : fractionText fraction = '.' :: fraction :=
    if_neg (List.ne_nil_of_length_eq_add_one length)
  rw [point, value, length] at parts
  rw [text, List.append_assoc, List.cons_append]
  simpa using parts

/-- A number without places: its digits, zeros for what is missing in front of the point, and a zero
behind it. -/
theorem size?_zeros {n : Nat} {zeros : Nat} (proper : 0 < n ∨ zeros = 0) (ends : Ends rest) :
    size? (Integer.digits n ++ List.replicate zeros '0' ++ ['.', '0'] ++ rest) =
      some ((n : ℚ) * 10 ^ zeros, rest) := by
  have isWhole : Whole (Integer.digits n ++ List.replicate zeros '0') := by
    rcases proper with positive | rfl
    · refine ⟨by simp [Nat.toDigits_ne_nil, Integer.digits], ?_, ?_⟩
      · intro c member
        rcases List.mem_append.mp member with digit | zero
        · exact isDigit_of_mem_digits c digit
        · rw [List.eq_of_mem_replicate zero]
          rfl
      · intro zero
        rw [List.head?_append_of_ne_nil (Integer.digits n) Nat.toDigits_ne_nil] at zero
        exact absurd zero (head?_digits positive)
    · simpa using whole_digits n
  have zero : ∀ c ∈ ['0'], c.isDigit = true := List.forall_mem_singleton.mpr rfl
  have parts := size?_parts isWhole zero ends.point (exponent?_none ends)
  have joined : Integer.digits n ++ List.replicate zeros '0' ++ ['0'] =
      Integer.digits n ++ List.replicate (zeros + 1) '0' := by
    rw [List.append_assoc, ← List.replicate_succ']
  rw [joined, ofDigits_zeros_behind, ofDigits_digits] at parts
  have value : ((n * 10 ^ (zeros + 1) : Nat) : ℚ) * 10 ^ ((0 : Int) - (['0'].length : Nat)) =
      (n : ℚ) * 10 ^ zeros := by
    show _ * (10 : ℚ) ^ (-1 : Int) = _
    push_cast
    rw [pow_succ]
    field_simp
  rw [value] at parts
  rw [List.append_assoc _ ['.', '0']]
  exact parts

/-- A number with an exponent: its first digit, the others behind the point, and how far the point
is to be moved. -/
theorem size?_scientific (n : Nat) (exponent : Int) (ends : Ends rest) :
    size? ((Integer.digits n).take 1 ++ (fractionText ((Integer.digits n).drop 1) ++
        (exponentText ((Integer.digits n).length - 1 + exponent) ++ rest))) =
      some ((n : ℚ) * 10 ^ exponent, rest) := by
  have all : ∀ c ∈ Integer.digits n, c.isDigit = true := isDigit_of_mem_digits
  have isWhole : Whole ((Integer.digits n).take 1) := by
    obtain ⟨c, more, known⟩ := List.exists_cons_of_ne_nil (Nat.toDigits_ne_nil (b := 10) (n := n))
    unfold Integer.digits at all ⊢
    rw [known] at all ⊢
    refine ⟨by simp, fun d member => all d (List.mem_of_mem_take member), ?_⟩
    intro zero
    simpa using zero
  have others : ∀ c ∈ (Integer.digits n).drop 1, c.isDigit = true :=
    fun c member => all c (List.mem_of_mem_drop member)
  have mark : ∀ c ∈ (exponentText ((Integer.digits n).length - 1 + exponent) ++ rest).head?,
      c.isDigit = false ∧ c ≠ '.' := by simp [exponentText]
  have parts := size?_parts isWhole others mark (exponent?_text _ ends)
  rw [List.take_append_drop, ofDigits_digits, List.length_drop] at parts
  have some : 1 ≤ (Integer.digits n).length := List.length_pos_iff.mpr Nat.toDigits_ne_nil
  have moved : ((Integer.digits n).length : Int) - 1 + exponent -
      (((Integer.digits n).length - 1 : Nat) : Int) = exponent := by
    omega
  rw [moved] at parts
  exact parts

/-- **Floating point numbers are read back.** The text of a decimal is read as its exact value. -/
theorem size?_floatDigits {coefficient : Nat} {exponent : Int}
    (proper : 0 < coefficient ∨ exponent = 0) (ends : Ends rest) :
    size? (floatDigits coefficient exponent ++ rest) =
      some ((coefficient : ℚ) * 10 ^ exponent, rest) := by
  unfold floatDigits
  dsimp only
  split
  · cases exponent with
    | ofNat zeros =>
      have noneOrSome : 0 < coefficient ∨ zeros = 0 := by simpa using proper
      have digits : Decimal.plainDigits (Integer.digits coefficient) (-Int.ofNat zeros) =
          Integer.digits coefficient ++ List.replicate zeros '0' := by
        cases zeros with
        | zero => exact (List.append_nil _).symm
        | succ more => rfl
      rw [digits, if_neg (by simp)]
      simpa using size?_zeros noneOrSome ends
    | negSucc places =>
      have positive : 0 < coefficient := by
        rcases proper with positive | zero
        · exact positive
        · cases zero
      rw [if_pos (Int.negSucc_lt_zero places), List.append_nil]
      exact size?_places positive places ends
  · have read := size?_scientific coefficient exponent ends
    have point : (if (Integer.digits coefficient).length ≤ 1 then []
        else '.' :: (Integer.digits coefficient).drop 1) =
          fractionText ((Integer.digits coefficient).drop 1) := by
      simp only [fractionText, List.drop_eq_nil_iff]
    rw [point]
    simpa [exponentText] using read

end Json.Reader

end EntityFlow
