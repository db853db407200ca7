import EntityFlow.Text.Property

/-!
# Letter case

Small and capital forms of characters and of whole texts. A capital sigma at the end of a word has
a small form of its own, so lowering a text looks at what stands around that letter; every other
character is mapped alone.
-/

namespace EntityFlow.Text

/-- The code point moved by the first entry whose domain holds it, or itself. -/
def Table.shift (table : List Shift) (code : Nat) : Nat :=
  match table.find? (·.domain.contains code) with
  | some entry => (code + entry.distance).toNat
  | none => code

/-- The mapping of one character: a sequence of its own, or one character at a distance. -/
def Table.mapChar (many : List (Nat × List Nat)) (single : List Shift) (c : Char) : List Char :=
  match many.lookup c.toNat with
  | some codes => codes.map Char.ofNat
  | none => [Char.ofNat (Table.shift single c.toNat)]

/-- The small form of a character that stands alone. -/
def lowerChar (c : Char) : List Char :=
  if isAscii c then [c.toLower] else Table.mapChar Table.toLowerMany Table.toLower c

/-- The capital form of a character, which may be several characters. -/
def upperChar (c : Char) : List Char :=
  if isAscii c then [c.toUpper] else Table.mapChar Table.toUpperMany Table.toUpper c

/-- Whether the first character that case conversion does not look past has a letter case. -/
def meetsCased (cs : List Char) : Bool :=
  match cs.dropWhile isCaseIgnorable with
  | c :: _ => isCased c
  | [] => false

/-- The small form of a text; `before` holds what stands in front of it, nearest first. A capital
sigma that follows a cased letter and precedes none takes its final form. -/
def lowerFrom (before : List Char) : List Char → List Char
  | [] => []
  | c :: rest =>
      let form :=
        if c == 'Σ' then
          if meetsCased before && !meetsCased rest then ['ς'] else ['σ']
        else lowerChar c
      form ++ lowerFrom (c :: before) rest

/-- The small form of a text. -/
def lower (cs : List Char) : List Char := lowerFrom [] cs

/-- The capital form of a text. -/
def upper (cs : List Char) : List Char := cs.flatMap upperChar

/-- The text with its first character in capital form. -/
def capitalize : List Char → List Char
  | [] => []
  | c :: rest => upperChar c ++ rest

/-- The text with its first character in small form. -/
def uncapitalize : List Char → List Char
  | [] => []
  | c :: rest => lowerChar c ++ rest

end EntityFlow.Text
