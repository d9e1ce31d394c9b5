import SchemaBindings.Imports
import SchemaBindings.Imports.Cycle

/-!
Splitting the imports of all modules into those that are declared at the top of the importing module
and those that are deferred to the places of use, so that the declared ones form no cycle.
-/

namespace SchemaBindings.Imports

/-- The imports of one module: the declared names by their source, and the source of every deferred
name, all sorted. -/
structure ModuleImports where
  eager : List (ModuleId × List String) := []
  deferred : List (String × ModuleId) := []
deriving DecidableEq, Repr, Inhabited

/-- The imports of every module, and the edges that are deferred, both sorted. -/
structure Resolution where
  modules : List (ModuleId × ModuleImports)
  demoted : List Edge
deriving Repr

/-- The graph of imports, without those of a module from itself. -/
def graphOf (sets : List (ModuleId × ImportSet)) : Graph :=
  sets.map fun (m, set) => (m, set.modules.filter (· != m))

/-- The order of edges: by importer, then by source. -/
def edgeBefore (a b : Edge) : Bool :=
  a.1.before b.1 || (a.1 == b.1 && a.2.before b.2)

def sortedEdges (edges : List Edge) : List Edge :=
  edges.mergeSort fun a b => !edgeBefore b a

/-- Adds a declared name to the group of its source. -/
def declare (name : String) (source : ModuleId) (groups : List (ModuleId × List String)) :
    List (ModuleId × List String) :=
  insertSorted ModuleId.before source (insertName name ((groups.lookup source).getD [])) groups

def split (demoted : List Edge) (m : ModuleId) (set : ImportSet) : ModuleImports :=
  set.entries.foldl (fun imports (name, source) =>
    if demoted.contains (m, source) then
      { imports with deferred := insertByName name source imports.deferred }
    else { imports with eager := declare name source imports.eager }) {}

/-- Defers every edge that leads back and declares the others. -/
def resolve (sets : List (ModuleId × ImportSet)) : Except Failure Resolution :=
  let g := graphOf sets
  let demoted := sortedEdges (backEdges g)
  match unordered g demoted with
  | [] => .ok ⟨sets.map fun (m, set) => (m, split demoted m set), demoted⟩
  | stuck => .error (.cyclicImports (stuck.map ModuleId.text))

end SchemaBindings.Imports
