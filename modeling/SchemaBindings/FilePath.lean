/-!
Paths of files as texts: their components, and the parts of a file's name. Empty components and
components that stay where they are do not count, save one that stays where it is at the beginning.
-/

namespace SchemaBindings

/-- A step of a path. -/
inductive Component where
  | root
  | current
  | parent
  | normal (name : String)
deriving DecidableEq, Repr

def Component.text : Component → String
  | .root => "/"
  | .current => "."
  | .parent => ".."
  | .normal name => name

namespace FilePath

/-- The texts between the slashes of a path. -/
def pieces (path : String) : List String :=
  (path.toList.splitOn '/').map String.ofList

def stepOf? : String → Option Component
  | "" | "." => none
  | ".." => some .parent
  | name => some (.normal name)

def components (path : String) : List Component :=
  match pieces path with
  | [] | [""] => []
  | "" :: rest => .root :: rest.filterMap stepOf?
  | "." :: rest => .current :: rest.filterMap stepOf?
  | pieces => pieces.filterMap stepOf?

/-- The names among the components. -/
def names (components : List Component) : List String :=
  components.filterMap fun
    | .normal name => some name
    | _ => none

def fileName? (path : String) : Option String :=
  match (components path).getLast? with
  | some (.normal name) => some name
  | _ => none

/-- A file name before and after its last dot; a dot at the very beginning does not count. -/
def splitName (name : String) : String × Option String :=
  let cs := name.toList
  let after := (cs.reverse.takeWhile (· != '.')).reverse
  let before := cs.take (cs.length - after.length - 1)
  if after.length = cs.length ∨ before.isEmpty then (name, none)
  else (String.ofList before, some (String.ofList after))

def stem? (path : String) : Option String :=
  (fileName? path).map fun name => (splitName name).1

def extension? (path : String) : Option String :=
  (fileName? path).bind fun name => (splitName name).2

/-- Whether a piece of a path leads nowhere else. -/
def isIdle (piece : String) : Bool :=
  piece == "" || piece == "."

/-- Whether a path ends in a way that only a directory can. -/
def endsInDirectory (path : String) : Bool :=
  match (pieces path).getLast? with
  | some piece => isIdle piece && path != ""
  | none => false

/-- The text of a path without its last component. -/
def parent (path : String) : String :=
  match (((pieces path).reverse.dropWhile isIdle).drop 1).dropWhile isIdle with
  | [] =>
    match components path with
    | .root :: _ => "/"
    | .current :: _ :: _ => "."
    | _ => ""
  | kept => "/".intercalate kept.reverse

/-- The path of the file beside a file that has another extension. -/
def withExtension (path extension : String) : String :=
  match fileName? path, (pieces path).reverse.dropWhile isIdle with
  | some name, _ :: rest =>
    "/".intercalate (((splitName name).1 ++ "." ++ extension) :: rest).reverse
  | _, _ => path

/-- The path of something below a directory, given by the names that lead to it. -/
def below (directory : String) (names : List String) : String :=
  let inner := "/".intercalate names
  if inner.isEmpty then directory
  else if directory.isEmpty || directory.endsWith "/" then directory ++ inner
  else directory ++ "/" ++ inner

end FilePath

end SchemaBindings
