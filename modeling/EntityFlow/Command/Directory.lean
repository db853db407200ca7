import EntityFlow.Text.Line

/-!
# Directories

Files by their paths, and what reading a path comes to. A path is followed component by component:
a component that names nothing, one below a file, one that is too long, and a directory at the end
are failures, each with its own cause. Whatever lies outside the directory holds no files.
-/

namespace EntityFlow

/-- Why a file cannot be read. -/
inductive ReadFailure
  | notFound
  | notDirectory
  | isDirectory
  | nameTooLong
  | notText
  | other (message : String)
deriving Repr, DecidableEq

/-- The wording of a failure. -/
def ReadFailure.message : ReadFailure → String
  | .notFound => "No such file or directory (os error 2)"
  | .notDirectory => "Not a directory (os error 20)"
  | .isDirectory => "Is a directory (os error 21)"
  | .nameTooLong => "File name too long (os error 36)"
  | .notText => "stream did not contain valid UTF-8"
  | .other message => message

/-- What a file holds. -/
inductive Content
  | text (source : String)
  /-- Bytes that are no text in UTF-8. -/
  | binary
deriving Repr, DecidableEq

/-- The text of a file. -/
def Content.source : Content → Except ReadFailure String
  | .text source => .ok source
  | .binary => .error .notText

/-- A directory: the components of the path of each file below it, and what the file holds. -/
structure Directory where
  files : List (List String × Content)
deriving Repr, DecidableEq

namespace Directory

/-- The components of a path. -/
def components (path : String) : List String :=
  (Text.splitAtChar '/' path.toList).map String.ofList

/-- The directory with files under their paths. -/
def ofFiles (files : List (String × Content)) : Directory :=
  ⟨files.map fun (path, content) => (components path, content)⟩

/-- The file at a place. -/
def file? (d : Directory) (place : List String) : Option Content := d.files.lookup place

/-- Whether there is a directory at a place: the directory itself, or one with a file below it. -/
def holds (d : Directory) (place : List String) : Bool :=
  place.isEmpty || d.files.any fun (path, _) => place.isPrefixOf path && place != path

/-- A component that stays where it is. -/
def stays (component : String) : Bool := component == "" || component == "."

/-- The most bytes that the name of a file may have. -/
def nameLimit : Nat := 255

/-- The bytes at which a path is too long, whatever its components are. -/
def pathLimit : Nat := 4096

/-- Why nothing is found under a name in a directory that does not hold it. -/
def missing (component : String) : ReadFailure :=
  if component.utf8ByteSize > nameLimit then .nameTooLong else .notFound

/-- What following a path comes to outside of the directory: it never reaches a file. -/
def followOutside (path : List String) : ReadFailure :=
  match path.find? fun component => !(stays component || component == "..") with
  | some component => missing component
  | none => .isDirectory

/-- What following a path from the place `here` comes to. -/
def follow (d : Directory) (here : List String) : List String → Except ReadFailure String
  | [] =>
      match d.file? here with
      | some content => content.source
      | none => .error .isDirectory
  | component :: rest =>
      if (d.file? here).isSome then .error .notDirectory
      else if stays component then follow d here rest
      else if component = ".." then
        if here.isEmpty then .error (followOutside rest) else follow d here.dropLast rest
      else
        let next := here ++ [component]
        if (d.file? next).isSome || d.holds next then follow d next rest
        else .error (missing component)

/-- What reading a path comes to. -/
def read (d : Directory) (path : String) : Except ReadFailure String :=
  if path.utf8ByteSize ≥ pathLimit then .error .nameTooLong
  else if path.isEmpty then .error .notFound
  else
    match components path with
    | "" :: rest => .error (followOutside rest)
    | path => d.follow [] path

end Directory

end EntityFlow
