import Mathlib.Data.String.Basic
import Mathlib.Order.Monotone.Defs
import Mathlib.Tactic.SplitIfs

/-!
# Texts and their bytes

Texts are compared character by character. Comparing their bytes in UTF-8 instead makes no
difference (`Text.bytes_le_bytes_iff`): of two characters, the smaller one has a smaller byte where
the bytes of the two part (`Text.below_encode`), so what stands behind them does not count
(`Text.Below.append_lt_append`).

A place between two characters of a text is told by the bytes in front of it
(`Text.eq_of_utf8ByteSize_eq`), and the bytes between two such places are those of the text that
stands there (`Text.extract_toUTF8`).
-/

namespace EntityFlow.Text

/-! ## Bytes of characters -/

/-- The last bytes of a character, which hold six bits each, the highest ones first. -/
def continuation (count v : ℕ) : List ℕ :=
  match count with
  | 0 => []
  | count + 1 => (v / 64 ^ count % 64 + 128) :: continuation count v

/-- The bytes of the character with a number: the more of them, the greater the first one. -/
def encode (v : ℕ) : List ℕ :=
  if v < 0x80 then [v]
  else if v < 0x800 then (v / 64 ^ 1 + 192) :: continuation 1 v
  else if v < 0x10000 then (v / 64 ^ 2 + 224) :: continuation 2 v
  else (v / 64 ^ 3 + 240) :: continuation 3 v

theorem encode_ne_nil (v : ℕ) : encode v ≠ [] := by
  unfold encode
  split_ifs <;> exact List.cons_ne_nil _ _

/-- The bytes of a character in UTF-8. -/
theorem map_toNat_utf8EncodeChar (c : Char) :
    (String.utf8EncodeChar c).map UInt8.toNat = encode c.toNat := by
  have scalar : c.val.toNat < 0x110000 := by
    have valid := c.valid
    simp only [UInt32.isValidChar, Nat.isValidChar] at valid
    omega
  unfold String.utf8EncodeChar encode Char.toNat
  generalize c.val.toNat = v at *
  dsimp only
  -- the two sides agree on the number of bytes, and no byte exceeds its bits
  split_ifs
  all_goals first
    | omega
    | simp only [List.map_cons, List.map_nil, UInt8.toNat_ofNat', continuation, List.cons.injEq,
        and_true]
      omega

/-! ## Bytes that part -/

/-- `Below as bs`: where the lists part, `as` has the smaller byte. Neither is the front of the
other. -/
inductive Below : List ℕ → List ℕ → Prop
  | head {a b : ℕ} {as bs : List ℕ} (less : a < b) : Below (a :: as) (b :: bs)
  | tail (a : ℕ) {as bs : List ℕ} (below : Below as bs) : Below (a :: as) (a :: bs)

namespace Below

variable {as bs : List ℕ}

/-- What stands behind does not count. -/
theorem append_lt_append (below : Below as bs) (cs ds : List ℕ) : as ++ cs < bs ++ ds := by
  induction below with
  | head less => exact List.Lex.rel less
  | tail a below ih => exact List.Lex.cons ih

theorem of_le {a b : ℕ} (le : a ≤ b) (tie : a = b → Below as bs) : Below (a :: as) (b :: bs) := by
  rcases lt_or_eq_of_le le with less | same
  · exact .head less
  · subst same
    exact .tail a (tie rfl)

end Below

/-- Numbers that differ in the bits of the last bytes only part there. -/
theorem below_continuation {v w : ℕ} (less : v < w) (count : ℕ)
    (high : v / 64 ^ count = w / 64 ^ count) :
    Below (continuation count v) (continuation count w) := by
  induction count with
  | zero =>
      rw [pow_zero, Nat.div_one, Nat.div_one] at high
      exact absurd high less.ne
  | succ count ih =>
      have le : v / 64 ^ count ≤ w / 64 ^ count := Nat.div_le_div_right less.le
      rw [pow_succ, ← Nat.div_div_eq_div_mul, ← Nat.div_div_eq_div_mul] at high
      -- above the six bits of this byte nothing differs, so they decide unless they are the same
      refine .of_le ?_ ?_
      · omega
      · intro tie
        refine ih ?_
        omega

theorem below_lead {v w : ℕ} (less : v < w) (count base : ℕ) :
    Below ((v / 64 ^ count + base) :: continuation count v)
      ((w / 64 ^ count + base) :: continuation count w) := by
  refine .of_le ?_ ?_
  · have le : v / 64 ^ count ≤ w / 64 ^ count := Nat.div_le_div_right less.le
    omega
  · intro tie
    exact below_continuation less count (by omega)

/-- Of two characters, the smaller one has a smaller byte where they part. -/
theorem below_encode {v w : ℕ} (less : v < w) : Below (encode v) (encode w) := by
  unfold encode
  split_ifs
  -- the bits decide where both have equally many bytes, and the first bytes do everywhere else
  all_goals first
    | exact below_lead less _ _
    | exact .head (by omega)

/-! ## Bytes of texts -/

/-- The bytes of a text in UTF-8. -/
def bytes (s : String) : List ℕ := s.toUTF8.data.toList.map UInt8.toNat

theorem bytes_eq (s : String) : bytes s = s.toList.flatMap fun c => encode c.toNat := by
  rw [bytes, String.toUTF8_eq_toByteArray, ← String.utf8Encode_toList, List.utf8Encode,
    List.toList_data_toByteArray, List.map_flatMap]
  simp only [map_toNat_utf8EncodeChar]

theorem flatMap_encode_lt {cs ds : List Char} (less : cs < ds) :
    (cs.flatMap fun c => encode c.toNat) < ds.flatMap fun c => encode c.toNat := by
  induction less with
  | nil =>
      obtain ⟨b, bs, first⟩ := List.exists_cons_of_ne_nil (encode_ne_nil _)
      rw [List.flatMap_nil, List.flatMap_cons, first]
      exact List.nil_lt_cons _ _
  | cons later ih =>
      rw [List.flatMap_cons, List.flatMap_cons]
      exact List.append_left_lt ih
  | rel smaller =>
      rw [List.flatMap_cons, List.flatMap_cons]
      exact (below_encode smaller).append_lt_append _ _

theorem strictMono_bytes : StrictMono bytes := by
  intro s t less
  rw [bytes_eq, bytes_eq]
  exact flatMap_encode_lt (String.lt_iff_toList_lt.mp less)

/-- **Texts are in the order of their bytes.** -/
theorem bytes_le_bytes_iff {s t : String} : bytes s ≤ bytes t ↔ s ≤ t :=
  strictMono_bytes.le_iff_le

/-! ## Places in a text -/

section Places

variable {text front front' : List Char}

theorem utf8ByteSize_ofList_append (front back : List Char) :
    (String.ofList (front ++ back)).utf8ByteSize =
      (String.ofList front).utf8ByteSize + (String.ofList back).utf8ByteSize := by
  rw [String.ofList_append, String.utf8ByteSize_append]

/-- Of two parts at the front of a text, the one with no more bytes is at the front of the other. -/
theorem isPrefix_of_utf8ByteSize_le (inText : front <+: text) (inText' : front' <+: text)
    (le : (String.ofList front).utf8ByteSize ≤ (String.ofList front').utf8ByteSize) :
    front <+: front' := by
  rcases List.prefix_or_prefix_of_prefix inText inText' with shorter | ⟨more, rfl⟩
  · exact shorter
  · -- what the first part has more takes no bytes
    rw [utf8ByteSize_ofList_append] at le
    have empty : (String.ofList more).utf8ByteSize = 0 := by omega
    rw [String.utf8ByteSize_eq_zero_iff, String.ofList_eq_empty_iff] at empty
    exact ⟨[], by rw [empty, List.append_nil, List.append_nil]⟩

theorem eq_of_utf8ByteSize_eq (inText : front <+: text) (inText' : front' <+: text)
    (same : (String.ofList front).utf8ByteSize = (String.ofList front').utf8ByteSize) :
    front = front' := by
  have shorter := isPrefix_of_utf8ByteSize_le inText inText' same.le
  have longer := isPrefix_of_utf8ByteSize_le inText' inText same.ge
  exact shorter.eq_of_length_le longer.length_le

/-- The bytes of a text between two places are the part that stands there. -/
theorem extract_toUTF8 {source : String} {before text back : List Char}
    (split : source.toList = before ++ text ++ back) :
    source.toUTF8.extract (String.ofList before).utf8ByteSize
      (String.ofList (before ++ text)).utf8ByteSize = (String.ofList text).toUTF8 := by
  have whole : source.toByteArray = (String.ofList (before ++ text)).toByteArray ++
      (String.ofList back).toByteArray := by
    rw [← String.toByteArray_append, ← String.ofList_append, ← split, String.ofList_toList]
  have sizes : (String.ofList (before ++ text)).toByteArray.size =
      (String.ofList before).toByteArray.size + (String.ofList text).toByteArray.size := by
    rw [String.ofList_append, String.toByteArray_append, ByteArray.size_append]
  show source.toByteArray.extract (String.ofList before).toByteArray.size
    (String.ofList (before ++ text)).toByteArray.size = (String.ofList text).toByteArray
  rw [whole, ByteArray.extract_append_size_left, sizes, String.ofList_append,
    String.toByteArray_append]
  exact ByteArray.extract_append_eq_right rfl rfl

end Places

end EntityFlow.Text
