import SchemaBindings.FileSystem
import SchemaBindings.Lookup

/-!
A tree of files as a value: what stands at each location. The root is a directory that needs no
entry.
-/

namespace SchemaBindings

/-- The names that lead to a file or directory from the root. -/
abbrev FileTree.Location := List String

inductive FileTree.Node where
  | file (text : String)
  | directory
deriving DecidableEq, Repr

/-- The files and directories below the root, sorted by location. -/
structure FileTree where
  nodes : List (FileTree.Location × FileTree.Node) := []
deriving DecidableEq, Repr

namespace FileTree

def get? (t : FileTree) (l : Location) : Option Node :=
  if l.isEmpty then some .directory else t.nodes.lookup l

def isDirectory (t : FileTree) (l : Location) : Bool :=
  t.get? l == some .directory

def put (t : FileTree) (l : Location) (n : Node) : FileTree :=
  ⟨insertSorted (fun a b => decide (a < b)) l n t.nodes⟩

def erase (t : FileTree) (l : Location) : FileTree :=
  ⟨t.nodes.filter fun (place, _) => place != l⟩

@[simp] theorem get?_nil (t : FileTree) : t.get? [] = some .directory := rfl

/-- The root stays a directory, whatever is put there. -/
theorem get?_put (t : FileTree) (l place : Location) (n : Node) :
    (t.put l n).get? place = if place = l ∧ place ≠ [] then some n else t.get? place := by
  cases place with
  | nil => simp
  | cons name rest => simp [get?, put, lookup_insertSorted]

theorem get?_erase (t : FileTree) (l place : Location) :
    (t.erase l).get? place = if place = l ∧ place ≠ [] then none else t.get? place := by
  obtain ⟨nodes⟩ := t
  cases place with
  | nil => simp
  | cons name rest =>
    simp only [get?, erase, List.isEmpty_cons, Bool.false_eq_true, if_false]
    induction nodes with
    | nil => simp
    | cons node nodes ih => grind

/-- Where a step leads from a location. There is nothing above the root, and only a directory can be
left downwards or upwards. -/
def step? (t : FileTree) (l : Location) : Component → Option Location
  | .root => some []
  | .current => some l
  | .parent => if t.isDirectory l then some l.dropLast else none
  | .normal name => if t.isDirectory l then some (l ++ [name]) else none

/-- The location that a path leads to. Something need not stand there, but above it there are
directories only. -/
def locate? (t : FileTree) (path : String) : Option Location :=
  match (FilePath.components path).foldlM t.step? [] with
  | some l => if FilePath.endsInDirectory path && !t.isDirectory l then none else some l
  | none => none

/-- The files by their locations. -/
def files (t : FileTree) : List (Location × String) :=
  t.nodes.filterMap fun
    | (l, .file text) => some (l, text)
    | (_, .directory) => none

def read? (t : FileTree) (path : String) : Option String :=
  match (t.locate? path).bind t.get? with
  | some (.file text) => some text
  | _ => none

def filesBelow? (t : FileTree) (path : String) : Option (List Location) := do
  let l ← t.locate? path
  match ← t.get? l with
  | .file _ => return [[]]
  | .directory =>
    return (t.files.filter fun (place, _) => l.isPrefixOf place).map fun (place, _) =>
      place.drop l.length

/-- Takes a step and makes a directory where there is nothing. -/
def enter (t : FileTree) (l : Location) (c : Component) : Option (Location × FileTree) := do
  let l ← t.step? l c
  match t.get? l with
  | some .directory => some (l, t)
  | some (.file _) => none
  | none => some (l, t.put l .directory)

/-- Makes the directories on a way as far as there is no file in it, and says whether there is
none. -/
def makeWay (t : FileTree) (l : Location) : List Component → Bool × FileTree
  | [] => (true, t)
  | c :: rest =>
    match t.enter l c with
    | some (l, t) => makeWay t l rest
    | none => (false, t)

def makeDirectories (t : FileTree) (path : String) : Bool × FileTree :=
  t.makeWay [] (FilePath.components path)

def write? (t : FileTree) (path text : String) : Option FileTree := do
  let l ← t.locate? path
  if t.isDirectory l then none else some (t.put l (.file text))

def rename? (t : FileTree) (source target : String) : Option FileTree := do
  let a ← t.locate? source
  let b ← t.locate? target
  let some (.file text) := t.get? a | none
  if t.isDirectory b then none else some ((t.erase a).put b (.file text))

/-- Keeps a tree when a change of it is refused. -/
def change (f : FileTree → Option FileTree) : StateM FileTree Bool := fun t =>
  match f t with
  | some t => (true, t)
  | none => (false, t)

end FileTree

instance : FileSystem (StateM FileTree) where
  read path := return (← get).read? path
  filesBelow path := return (← get).filesBelow? path
  makeDirectories path := fun t => t.makeDirectories path
  write path text := FileTree.change (·.write? path text)
  rename source target := FileTree.change (·.rename? source target)

end SchemaBindings
