import SchemaBindings.Code.Tree
import SchemaBindings.FilePath
import SchemaBindings.Naming

/-!
The identity of a generated module: the names that lead to it from the root of the module tree, one
for each directory of its schema file and one for the file.
-/

namespace SchemaBindings

structure ModuleId where
  segments : List String
deriving DecidableEq, Repr, Inhabited

namespace ModuleId

/-- The order of modules: by their first segments, then by the second ones, and so on. -/
def before (a b : ModuleId) : Bool :=
  decide (a.segments < b.segments)

/-- The module of a schema file by the path of the file. -/
def ofSchemaPath (path : String) : ModuleId :=
  let directories := FilePath.names (FilePath.components path).dropLast
  ⟨(directories ++ (FilePath.stem? path).toList).map Naming.moduleName⟩

def text (m : ModuleId) : String :=
  "::".intercalate m.segments

/-- The components of the path that the module is written to. -/
def outputPath (m : ModuleId) : List String :=
  match m.segments.getLast? with
  | none => []
  | some last => m.segments.dropLast ++ [last ++ ".rs"]

/-- The path of the module below the root of the module tree. -/
def path (m : ModuleId) (root : Code.Path) : Except Failure Code.Path :=
  root.appendIdents <$> m.segments.mapM Code.Ident.ofName

end ModuleId

end SchemaBindings
