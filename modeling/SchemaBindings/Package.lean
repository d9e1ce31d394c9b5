import SchemaBindings.Binding.Module
import SchemaBindings.Code.Print.Item
import SchemaBindings.Code.Printable
import SchemaBindings.Generator
import SchemaBindings.Imports.Injection

/-!
The package of modules generated from a list of schema files. Imports are resolved only when every
module has been generated, so the package does not depend on which module came first.
-/

namespace SchemaBindings

open Code

/-- A finished module. Index files have no schema file as their source. -/
structure GeneratedModule where
  module : ModuleId
  source : Option String
  /-- The components of the path that it is written to. -/
  path : List String
  file : Code.File

/-- The line at the top of every generated file. -/
def banner : String :=
  "// This code was automatically generated by protobind-gen. Do not edit manually."

def GeneratedModule.contents (m : GeneratedModule) : String :=
  banner ++ "\n\n" ++ m.file.render

/-- All modules, sorted by path, the methods whose functions refuse to run, and the imports that
are deferred. -/
structure Package where
  modules : List GeneratedModule
  stubbed : List String
  demoted : List Imports.Edge

namespace Package

/-- A module whose imports are not resolved yet. -/
structure Draft where
  module : ModuleId
  source : String
  file : Code.File
  notes : Binding.Notes

def draft (g : Generator) (symbols : SymbolTable) (f : SchemaFile) : Except Failure Draft := do
  let module := ModuleId.ofSchemaPath f.path
  let context : Binding.Context :=
    { module, symbols, types := g.types, library := g.library, root := g.root
      asyncPrefix := g.settings.asyncPrefix, unimplemented := g.settings.unimplemented }
  let (file, notes) ← (Binding.moduleFile context f).run {}
  return { module, source := f.path, file := ← file.checked, notes }

/-! ## Index -/

/-- The child modules of every module that has some, both sorted. -/
abbrev Index := List (ModuleId × List String)

/-- Adds the steps that lead to a module; `reached` are the segments of those taken already. A child
that is also a name at the top of its parent is refused. -/
def addSteps (symbols : SymbolTable) (reached : List String) :
    List String → Index → Except Failure Index
  | [], index => .ok index
  | child :: rest, index =>
    let parent : ModuleId := ⟨reached⟩
    if symbols.isLocal parent child then .error (.nameCollision parent.text child)
    else
      let children := insertName child ((index.lookup parent).getD [])
      addSteps symbols (reached ++ [child]) rest
        (insertSorted ModuleId.before parent children index)

def indexOf (symbols : SymbolTable) (modules : List ModuleId) : Except Failure Index :=
  modules.foldlM (fun index m => addSteps symbols [] m.segments index) []

/-- The declarations of child modules. -/
def childItems (children : List String) : Except Failure (List Item) :=
  children.mapM fun child => .moduleFile <$> Ident.ofName child

/-- The file of a module that holds nothing but child modules. -/
def indexFile (parent : ModuleId) (children : List String) : Except Failure GeneratedModule := do
  let file : Code.File := ⟨[" Generated module index."], ← childItems children⟩
  return {
    module := parent, source := none, path := parent.segments ++ ["mod.rs"]
    file := ← file.checked }

/-! ## Package -/

/-- The finished module of a draft. -/
def finish (root : Code.Path) (resolution : Imports.Resolution) (index : Index) (d : Draft) :
    Except Failure GeneratedModule := do
  let children ← childItems ((index.lookup d.module).getD [])
  let file : Code.File := { d.file with items := children ++ d.file.items }
  let imports := (resolution.modules.lookup d.module).getD {}
  return {
    module := d.module, source := some d.source, path := d.module.outputPath
    file := ← (← Imports.inject root imports file).printable }

/-- The imports of every draft, sorted by module. -/
def importSets (drafts : List Draft) : List (ModuleId × ImportSet) :=
  drafts.foldl (fun sets d => insertSorted ModuleId.before d.module d.notes.imports sets) []

def sortedByPath (modules : List GeneratedModule) : List GeneratedModule :=
  modules.mergeSort fun a b => !decide (b.path < a.path)

/-- Generates the package of schema files. -/
def generate (g : Generator) (files : List SchemaFile) : Except Failure Package := do
  let symbols ← SymbolTable.build files g.settings.asyncPrefix
  let drafts ← files.mapM (draft g symbols)
  let resolution ← Imports.resolve (importSets drafts)
  let index ← if g.settings.moduleIndex then indexOf symbols (drafts.map (·.module)) else .ok []
  let modules ← drafts.mapM (finish g.root resolution index)
  let bare := index.filter fun (parent, _) => !(drafts.map (·.module)).contains parent
  let indexFiles ← bare.mapM fun (parent, children) => indexFile parent children
  return {
    modules := sortedByPath (modules ++ indexFiles)
    stubbed := drafts.flatMap (·.notes.stubbed)
    demoted := resolution.demoted }

end Package

end SchemaBindings
