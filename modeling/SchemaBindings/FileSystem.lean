import SchemaBindings.FilePath

/-!
What a run needs of the files around it. Paths are texts, relative to where the run takes place.
-/

namespace SchemaBindings

/-- Access to files in a monad. An operation that is refused answers `none` or `false`. -/
class FileSystem (m : Type → Type) where
  /-- The text of a file. -/
  read : String → m (Option String)
  /-- The files below a directory, each by the names that lead to it. The only file below a file is
  the file itself. -/
  filesBelow : String → m (Option (List (List String)))
  /-- Makes a directory and those above it, as far as they are missing. -/
  makeDirectories : String → m Bool
  /-- Gives a file a new text. -/
  write : String → String → m Bool
  /-- Moves a file to another path, where it takes the place of a file. -/
  rename : String → String → m Bool

end SchemaBindings
