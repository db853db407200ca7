import EntityFlow.Text.Line

/-!
# The two languages

The entity language describes data and services, the flow language how events and commands follow
each other. A language is chosen by its name or by the extension of a file name.
-/

namespace EntityFlow

/-- The languages. -/
inductive Language
  | entity
  | flow
deriving Repr, DecidableEq

namespace Language

/-- The small form of ASCII letters; every other character stays. -/
def lowerAscii (s : String) : String := String.ofList (s.toList.map Char.toLower)

/-- The language of a name in any case; a name that is none comes back in small letters. -/
def ofName (name : String) : Except String Language :=
  match lowerAscii name with
  | "zdl" => .ok .entity
  | "zfl" => .ok .flow
  | other => .error other

/-- What is said about a name that is no language. -/
def unknownMessage (name : String) : String :=
  "unknown language '" ++ name ++ "', expected zdl or zfl"

/-- The last component of a path, unless the path ends in a directory by nature: the root, the
current or the parent directory. -/
def fileName? (path : List Char) : Option (List Char) :=
  let absolute := path.head? = some '/'
  let components := (Text.splitAtChar '/' path).filter (· ≠ [])
  let named :=
    match components with
    | ['.'] :: rest =>
        if absolute then rest.filter (· ≠ ['.']) else ['.'] :: rest.filter (· ≠ ['.'])
    | all => all.filter (· ≠ ['.'])
  named.getLast?.filter fun last => last ≠ ['.'] ∧ last ≠ ['.', '.']

/-- What follows the last point of a file name; a point in front of the whole name does not count. -/
def extension? (name : List Char) : Option (List Char) :=
  let back := name.reverse
  match back.dropWhile (· != '.') with
  | _ :: _ :: _ => some (back.takeWhile (· != '.')).reverse
  | _ => none

/-- The language of a file, by the extension of its name. -/
def ofPath? (path : String) : Option Language := do
  let name ← fileName? path.toList
  let extension ← extension? name
  match lowerAscii (String.ofList extension) with
  | "zdl" | "jdl" => some .entity
  | "zfl" => some .flow
  | _ => none

end Language

end EntityFlow
