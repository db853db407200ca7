import EntityFlow.Name.Words
import EntityFlow.Text.LetterCase
import EntityFlow.Text.Line

/-!
# Inflection of names

The naming conventions by which records are called: upper and lower camel case, words joined with
hyphens or underscores, and the plural of the last word.
-/

namespace EntityFlow.Name

/-! ## Conventions -/

/-- Words with capital initials and nothing between them. -/
def upperCamelChars (name : List Char) : List Char := (words name).flatMap Text.capitalize

/-- Upper camel case with a small first letter. -/
def lowerCamelChars (name : List Char) : List Char := Text.uncapitalize (upperCamelChars name)

/-- Words in small letters with a separator between them. -/
def lowerWords (separator : List Char) (name : List Char) : List Char :=
  Text.join separator ((words name).map Text.lower)

/-! ## Plural -/

/-- Words whose plural is the word itself. -/
def uncountable : List String :=
  ["equipment", "information", "rice", "money", "species", "series", "fish", "sheep", "deer",
    "news", "metadata"]

/-- Words with a plural of their own. -/
def irregular : List (String × String) :=
  [("person", "people"), ("man", "men"), ("woman", "women"), ("child", "children"),
    ("tooth", "teeth"), ("foot", "feet"), ("mouse", "mice"), ("goose", "geese"), ("ox", "oxen"),
    ("move", "moves"), ("sex", "sexes")]

/-- Endings and what takes their place; the first that fits counts. -/
def endings : List (String × String) :=
  [("quiz", "quizzes"), ("matrix", "matrices"), ("vertex", "vertices"), ("index", "indices"),
    ("octopus", "octopi"), ("alias", "aliases"), ("status", "statuses"), ("bus", "buses"),
    ("buffalo", "buffaloes"), ("tomato", "tomatoes"), ("potato", "potatoes"), ("hive", "hives"),
    ("sis", "ses"), ("ife", "ives"), ("lf", "lves"), ("rf", "rves"), ("tum", "ta"), ("ium", "ia"),
    ("ch", "ches"), ("sh", "shes"), ("ss", "sses"), ("x", "xes")]

/-- The vowels. -/
def vowels : List Char := ['a', 'e', 'i', 'o', 'u']

/-- Whether the `y` that ends a word in small letters turns into `ies`: after a consonant and after
`qu`. `stem` is the word without it. -/
def yieldsIes (stem : List Char) : Bool :=
  stem.getLast?.any (fun c => !vowels.contains c) || ['q', 'u'].isSuffixOf stem

/-- The plural of a word in small letters that no table knows. -/
def regularPlural (word : List Char) : List Char :=
  if word.getLast? = some 'y' ∧ yieldsIes word.dropLast then word.dropLast ++ ['i', 'e', 's']
  else if word.getLast? = some 's' then word
  else word ++ ['s']

/-- The first ending that a word has, with what takes its place. -/
def ending? (word : List Char) : Option (String × String) :=
  endings.find? fun (ending, _) => ending.toList.isSuffixOf word

/-- The plural of a word in small letters that is countable. -/
def countablePlural (word : List Char) : List Char :=
  match irregular.find? (fun (singular, _) => singular.toList == word) with
  | some (_, plural) => plural.toList
  | none =>
      match ending? word with
      | some (ending, replacement) =>
          word.take (word.length - ending.toList.length) ++ replacement.toList
      | none => regularPlural word

/-- A word in small letters written like another word: in capitals if that has capitals only, with
a capital initial if that has one. -/
def withCaseOf (pattern word : List Char) : List Char :=
  if !pattern.any Text.isLowercase && pattern.any Text.isUppercase then Text.upper word
  else if pattern.head?.any Text.isUppercase then Text.capitalize word
  else word

/-- The plural of a word, written like the word. -/
def pluralWord (word : List Char) : List Char :=
  let small := Text.lower word
  if uncountable.any (·.toList == small) then word else withCaseOf word (countablePlural small)

/-- A name with its last word in the plural. -/
def pluralChars (name : List Char) : List Char :=
  joined (changeLastWord pluralWord (segments name))

/-! ## Names as strings -/

/-- The name in upper camel case, as classes are called. -/
def upperCamel (name : String) : String := String.ofList (upperCamelChars name.toList)

/-- The name in lower camel case, as instances are called. -/
def lowerCamel (name : String) : String := String.ofList (lowerCamelChars name.toList)

/-- The words of the name in small letters with hyphens between them. -/
def kebab (name : String) : String := String.ofList (lowerWords ['-'] name.toList)

/-- The words of the name in small letters with underscores between them. -/
def snake (name : String) : String := String.ofList (lowerWords ['_'] name.toList)

/-- The name with its last word in the plural. -/
def plural (name : String) : String := String.ofList (pluralChars name.toList)

/-- The whole name in small letters. -/
def small (name : String) : String := String.ofList (Text.lower name.toList)

end EntityFlow.Name
