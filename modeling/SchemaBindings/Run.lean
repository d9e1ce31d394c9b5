import SchemaBindings.Package.Write
import SchemaBindings.Schema.Tree
import SchemaBindings.Settings.Reader

/-!
A run from the schema files below one directory to the modules below another.
-/

namespace SchemaBindings

variable {m : Type → Type} [Monad m] [FileSystem m]

/-- The settings of a file, or the default ones. -/
def Settings.load : Option String → ExceptT Failure m Settings
  | none => return {}
  | some path => do
    let some text ← (FileSystem.read path : m _) | throw (.unreadable path)
    Settings.ofToml text

/-- What a run did: the paths of the modules in writing order, the methods whose functions refuse to
run, and the imports that are deferred. -/
structure Summary where
  files : List String
  stubbed : List String
  demoted : List Imports.Edge
  isDryRun : Bool

namespace Generator

/-- The schema files below a directory. -/
def load (root : String) : ExceptT Failure m (List SchemaFile) := do
  SchemaTree.load root (← SchemaTree.discover root)

def package (g : Generator) (root : String) : ExceptT Failure m Package := do
  Package.generate g (← load root)

/-- Writes the package of the schema files below a directory. A dry run writes nothing and answers
with the text of the package. -/
def run (g : Generator) (root output : String) (isDryRun : Bool) :
    ExceptT Failure m (Summary × String) := do
  let package ← g.package root
  let files ←
    if isDryRun then pure (package.modules.map fun g => FilePath.below output g.path)
    else package.write output
  let summary := { files, stubbed := package.stubbed, demoted := package.demoted, isDryRun }
  return (summary, if isDryRun then package.text else "")

end Generator

def Summary.text (s : Summary) : String :=
  let verb := if s.isDryRun then "Rendered" else "Generated"
  let stubs := s.stubbed.map fun method =>
    "  stub " ++ method ++ " (client streaming, single response)\n"
  let cycles := s.demoted.map fun (importer, imported) =>
    "  cycle " ++ importer.text ++ " -> " ++ imported.text ++
      " (qualified paths instead of \x60use\x60)\n"
  verb ++ " " ++ toString s.files.length ++ " module file(s)\n" ++ String.join (stubs ++ cycles)

end SchemaBindings
