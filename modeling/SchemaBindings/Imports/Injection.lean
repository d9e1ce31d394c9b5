import SchemaBindings.Code.Tree.Relocation
import SchemaBindings.Code.WellFormed
import SchemaBindings.Imports.Resolution

/-!
Putting the resolved imports of a module into its file: declared ones as imports at the top,
deferred ones as full paths wherever their names are used.
-/

namespace SchemaBindings.Imports

open Code

/-- The import of names from one module. -/
def useItem (root : Path) (source : ModuleId) (names : List String) : Except Failure Item := do
  match (Item.use (← source.path root) (← names.mapM Ident.ofName)).readBack? with
  | some item => return item
  | none => .error .unusableName

/-- The full paths of the modules that deferred names come from. -/
def relocation (root : Path) (deferred : List (String × ModuleId)) : Except Failure Relocation :=
  deferred.mapM fun (name, source) => do return (name, ← source.path root)

def inject (root : Path) (imports : ModuleImports) (f : File) : Except Failure File := do
  let f := f.relocate (← relocation root imports.deferred)
  let uses ← imports.eager.mapM fun (source, names) => useItem root source names
  return { f with items := uses ++ f.items }

end SchemaBindings.Imports
