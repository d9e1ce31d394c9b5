import SchemaBindings.Text.CaseMap
import SchemaBindings.Text.WordClass

/-!
Splitting a name into words and joining the words in snake case or in upper camel case. A word ends
at a character that belongs to no word, after a lowercase letter that stands before an uppercase
one, and before an uppercase letter that stands between an uppercase and a lowercase one.
-/

namespace SchemaBindings.Text

/-- The case of the last cased letter since the current word began. -/
inductive WordMode where
  | boundary
  | lowercase
  | uppercase
deriving DecidableEq, Repr

/-- The words of a run of word characters; `word` holds the current word's characters so far, the
last one first. -/
def splitRun (mode : WordMode) (word : List Char) : List Char → List (List Char)
  | [] => if word.isEmpty then [] else [word.reverse]
  | [c] => [(c :: word).reverse]
  | c :: next :: rest =>
    let entered : WordMode :=
      if isLowercase c then .lowercase else if isUppercase c then .uppercase else mode
    if entered = .lowercase ∧ isUppercase next then
      (c :: word).reverse :: splitRun .boundary [] (next :: rest)
    else if mode = .uppercase ∧ isUppercase c ∧ isLowercase next then
      word.reverse :: splitRun .boundary [c] (next :: rest)
    else
      splitRun entered (c :: word) (next :: rest)

/-- The maximal runs of word characters; `run` holds the current one, the last character first. -/
def runs (run : List Char) : List Char → List (List Char)
  | [] => if run.isEmpty then [] else [run.reverse]
  | c :: rest =>
    if isWordChar c then runs (c :: run) rest
    else if run.isEmpty then runs [] rest
    else run.reverse :: runs [] rest

/-- The words of a name, in order. -/
def words (s : List Char) : List (List Char) :=
  (runs [] s).flatMap (splitRun .boundary [])

/-- A word in lowercase. A capital sigma that ends the word becomes the final sigma. -/
def lowercaseWord : List Char → List Char
  | [] => []
  | [c] => if c = 'Σ' then ['ς'] else lowercaseImage c
  | c :: rest => lowercaseImage c ++ lowercaseWord rest

/-- A word with its first character in uppercase and the others in lowercase. -/
def capitalizedWord : List Char → List Char
  | [] => []
  | c :: rest => uppercaseImage c ++ lowercaseWord rest

def snakeCase (s : String) : String :=
  String.ofList (['_'].intercalate ((words s.toList).map lowercaseWord))

def upperCamelCase (s : String) : String :=
  String.ofList ((words s.toList).flatMap capitalizedWord)

end SchemaBindings.Text
