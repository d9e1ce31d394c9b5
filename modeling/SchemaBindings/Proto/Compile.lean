import SchemaBindings.Failure
import SchemaBindings.FilePath
import SchemaBindings.Proto.Options
import SchemaBindings.Proto.Reader

/-!
Compiling schema files together with everything they import. Files import each other by their paths
below the root of the sources, without cycles, and share one space of names.
-/

namespace SchemaBindings.Proto

/-- The texts of files by their paths below the root. -/
abbrev Sources := List (String × String)

/-- The path of a file by its names alone, if it has no other components. -/
def plainPath? (components : List Component) : Option String :=
  if components.all (fun | .normal _ => true | _ => false) then
    some ("/".intercalate (FilePath.names components))
  else none

/-- The file at a path. A source hides a well-known file. -/
def find? (sources : Sources) (path : String) : Option FileSource :=
  let components := (FilePath.components path).filter (· != .current)
  match (plainPath? components).bind fun name => sources.lookup name with
  | some text => FileSource.ofText? text
  | none => WellKnown.source? path

/-- Whether a file can be imported by the path: all its parts are names of their own. -/
def isImportPath (path : String) : Bool :=
  !path.contains '\\' && (path.splitOn "/").all fun part =>
    part != "" && part != "." && part != ".."

/-- Whether every import has a possible path and is there once. -/
def areImportsSound (imports : List ImportSource) : Bool :=
  let paths := imports.map (·.path)
  paths.all isImportPath && paths.eraseDups.length == paths.length

/-- Adds a file after everything it imports. `stack` holds the files whose imports are being added,
each for the one before it, so the number of files bounds its length. -/
def Pool.addAll? (sources : Sources) : Nat → List String → Pool → String → Option Pool
  | 0, _, _, _ => none
  | fuel + 1, stack, pool, path =>
    if stack.contains path then none
    else if (pool.file? path).isSome then some pool
    else do
      let file ← find? sources path
      if !areImportsSound file.imports then none
      let imports := file.imports.map (·.path)
      let pool ← imports.foldlM (Pool.addAll? sources fuel (path :: stack)) pool
      pool.add? path file

/-- The number of files that there can be. -/
def fileLimit (sources : Sources) : Nat :=
  sources.length + 16

/-- Compiles files, each given by its path below the root of the sources. -/
def compile? (sources : Sources) (paths : List String) : Option Pool :=
  paths.foldlM (Pool.addAll? sources (fileLimit sources) []) []

/-- The path that a file is compiled under: steps that stay where they are do not count, and no step
leads upwards. -/
def compiledPath? (path : String) : Option String :=
  plainPath? ((FilePath.components path).filter (· != .current))

/-- The path under which the descriptor of a file is looked for. -/
def descriptorPath (path : String) : String :=
  "/".intercalate ((FilePath.components path).map Component.text)

/-- Loads files in the given order as schema entities. -/
def load (sources : Sources) (paths : List String) : Except Failure (List SchemaFile) :=
  if paths.isEmpty then .ok []
  else
    match (paths.mapM compiledPath?).bind (compile? sources) with
    | none => .error .notCompiled
    | some pool => paths.mapM fun path =>
      match pool.file? (descriptorPath path) with
      | some f => .ok (f.descriptor.convert path)
      | none => .error (.missingSchema (descriptorPath path))

end SchemaBindings.Proto
