import SchemaBindings.SupportLibrary
import SchemaBindings.TypeMap

/-!
A generator: settings whose types, paths and identifiers have been read.
-/

namespace SchemaBindings

structure Generator where
  settings : Settings
  types : TypeMap
  library : SupportLibrary
  root : Code.Path

/-- Reads the types, paths and identifiers of settings, the first unusable one of which is
refused. -/
def Generator.ofSettings (s : Settings) : Except Failure Generator := do
  let types ← TypeMap.ofSettings s
  let library ← SupportLibrary.ofSettings s.runtime
  let root ← Settings.readText "module_root" Code.Path.read? s.moduleRoot
  if s.asyncPrefix.isEmpty then throw .emptyAsyncPrefix
  let _ ← Settings.readText "async_prefix" Code.Ident.read? s.asyncPrefix
  return { settings := s, types, library, root }

end SchemaBindings
