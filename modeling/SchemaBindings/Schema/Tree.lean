import SchemaBindings.FileSystem
import SchemaBindings.Proto.Compile

/-!
The schema files below a directory. They are found by their extension and put in the order of their
paths, one component after the other.
-/

namespace SchemaBindings.SchemaTree

variable {m : Type → Type} [Monad m] [FileSystem m]

/-- The extension of schema files. -/
def extension : String := "proto"

def isSchema (root : String) (names : List String) : Bool :=
  FilePath.extension? (FilePath.below root names) == some extension

def sortedNames (files : List (List String)) : List (List String) :=
  files.mergeSort fun a b => !decide (b < a)

/-- The paths of all schema files below a directory. -/
def discover (root : String) : ExceptT Failure m (List String) := do
  let some files ← (FileSystem.filesBelow root : m _) | throw (.unreadable root)
  return (sortedNames (files.filter (isSchema root))).map "/".intercalate

/-- The texts of all files below a directory by their paths. -/
def sources (root : String) : m Proto.Sources := do
  let files := (← FileSystem.filesBelow root).getD []
  let texts ← (files.filter (!·.isEmpty)).mapM fun names => do
    return (← FileSystem.read (FilePath.below root names)).map ("/".intercalate names, ·)
  return texts.filterMap id

/-- Compiles files that are given by their paths below a directory. -/
def load (root : String) (paths : List String) : ExceptT Failure m (List SchemaFile) := do
  Proto.load (← (sources root : m _)) paths

end SchemaBindings.SchemaTree
