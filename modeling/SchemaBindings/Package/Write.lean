import SchemaBindings.FileSystem
import SchemaBindings.Package

/-!
Writing a package below a directory. A file is first written beside its place and then moved there,
so that nobody sees half of it.
-/

namespace SchemaBindings

variable {m : Type → Type} [Monad m] [FileSystem m]

/-- Fails with a path when an operation on it is refused. -/
def orUnwritable (path : String) (done : m Bool) : ExceptT Failure m Unit := do
  unless ← (done : m Bool) do throw (.unwritable path)

/-- The path at which a file is written before it is moved to its place. -/
def temporaryPath (path : String) : String :=
  FilePath.withExtension path "tmp"

/-- Gives a file a new text all at once; directories above it are made where they are missing. -/
def writeWhole (path text : String) : ExceptT Failure m Unit := do
  let parent := FilePath.parent path
  unless parent.isEmpty do orUnwritable parent (FileSystem.makeDirectories parent)
  let temporary := temporaryPath path
  orUnwritable temporary (FileSystem.write temporary text)
  orUnwritable path (FileSystem.rename temporary path)

namespace Package

/-- Writes the modules in order and answers with their paths. Those before a module that cannot be
written stay. -/
def write (p : Package) (directory : String) : ExceptT Failure m (List String) :=
  p.modules.mapM fun g => do
    let path := FilePath.below directory g.path
    writeWhole path g.contents
    return path

/-- All modules with their paths, for a reader instead of for files. -/
def text (p : Package) : String :=
  String.join (p.modules.map fun g =>
    "=== " ++ "/".intercalate g.path ++ " ===\n" ++ g.contents ++ "\n\n")

end Package

end SchemaBindings
