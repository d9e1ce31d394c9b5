import SchemaBindings.Binding.Service

/-!
The module of a schema file: its enums, its messages, and then the clients of its services.
-/

namespace SchemaBindings.Binding

open Code

/-- What a module says about where it comes from. -/
def sourceDoc (path : String) : String :=
  let source := "/".intercalate ((FilePath.components path).map Component.text)
  " Generated from \x60" ++ source ++ "\x60."

/-- The module of a file, without its imports. -/
def moduleFile (c : Context) (f : SchemaFile) : Binder File := do
  let enums ← (f.enums.mapM (enumItem c f.package) : Except Failure (List Item))
  let messages ← allMessageItems c f.package 0 f.messages
  let services ← serviceItems c f.services
  return ⟨[sourceDoc f.path], enums ++ messages ++ services⟩

end SchemaBindings.Binding
