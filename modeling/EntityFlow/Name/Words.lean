import EntityFlow.Text.Property

/-!
# The words of a name

A name is cut into words and the characters between them. A word ends in front of a character that
is no letter and no number, in front of the capital of a hump (`orderItem`) and in front of the
last capital of an acronym that a small letter follows (`HTTPServer`). Nothing is lost: the
segments joined are the name.
-/

namespace EntityFlow.Name

/-- A part of a name. -/
inductive Segment
  | word (text : List Char)
  | gap (c : Char)
deriving Repr, DecidableEq

namespace Segment

/-- The characters of a part. -/
def text : Segment → List Char
  | .word w => w
  | .gap c => [c]

/-- Whether a part is a word. -/
def isWord : Segment → Bool
  | .word _ => true
  | .gap _ => false

end Segment

/-- Whether a word ends between two neighbouring letters or numbers; `next` is the character after
them. -/
def breaksBetween (first second : Char) (next : Option Char) : Bool :=
  Text.isUppercase second &&
    (Text.isLowercase first || first.isDigit ||
      (Text.isUppercase first && next.any Text.isLowercase))

/-- The parts of a name in order. -/
def segments : List Char → List Segment
  | [] => []
  | c :: rest =>
      let later := segments rest
      if Text.isAlphanumeric c then
        match rest, later with
        | d :: more, .word w :: others =>
            if breaksBetween c d more.head? then .word [c] :: later else .word (c :: w) :: others
        | _, _ => .word [c] :: later
      else .gap c :: later

/-- The words of a name in order. -/
def words (name : List Char) : List (List Char) :=
  ((segments name).filter Segment.isWord).map Segment.text

/-- The name that parts make up. -/
def joined (parts : List Segment) : List Char := parts.flatMap Segment.text

/-- The parts with the last word changed. -/
def changeLastWord (change : List Char → List Char) : List Segment → List Segment
  | [] => []
  | .gap c :: rest => .gap c :: changeLastWord change rest
  | .word w :: rest =>
      if rest.any Segment.isWord then .word w :: changeLastWord change rest
      else .word (change w) :: rest

/-- How many bytes of UTF-8 a text takes. -/
def byteLength : List Char → Nat
  | [] => 0
  | c :: rest => c.utf8Size + byteLength rest

/-- The byte ranges of the words among parts that start at an offset. -/
def rangesFrom (offset : Nat) : List Segment → List (Nat × Nat)
  | [] => []
  | .gap c :: rest => rangesFrom (offset + c.utf8Size) rest
  | .word w :: rest =>
      (offset, offset + byteLength w) :: rangesFrom (offset + byteLength w) rest

/-- The byte ranges of the words of a name. -/
def wordRanges (name : List Char) : List (Nat × Nat) := rangesFrom 0 (segments name)

end EntityFlow.Name
