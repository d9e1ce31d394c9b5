import SchemaBindings.Imports
import SchemaBindings.SupportLibrary
import SchemaBindings.SymbolTable
import SchemaBindings.TypeMap

/-!
References from generated code to messages and enums. Definitions of the same module are named from
where the reference stands, those of other modules are imported, and where the imported name would
mean something else they are named by their full path.
-/

namespace SchemaBindings.Binding

open Code

/-- What a module is generated against. -/
structure Context where
  module : ModuleId
  symbols : SymbolTable
  types : TypeMap
  library : SupportLibrary
  root : Path
  asyncPrefix : String
  unimplemented : UnimplementedPolicy

/-- What is noted while a module is generated: its imports, and the methods whose functions refuse
to run. -/
structure Notes where
  imports : ImportSet := {}
  stubbed : List String := []
deriving Repr, Inhabited

/-- A part of a module, made with notes at hand, or a failure. -/
abbrev Binder := StateT Notes (Except Failure)

def underscore : Ident := ⟨"_"⟩

/-- The type that names lead to from a module `depth` levels inside the file. A lone underscore is
not a name but leaves the type open. -/
def relativeType (depth : Nat) (names : List Ident) : Except Failure Ty :=
  if depth = 0 ∧ names = [underscore] then .ok .infer
  else if names.contains underscore then .error .unusableName
  else
    let names := List.replicate depth (Ident.mk "super") ++ names
    .ok (.path (.mk false (names.map (.mk · .none))))

/-- Whether a type can begin with the path. -/
def beginsType (p : Path) : Bool :=
  p.leading || p.segments.head?.all (·.ident.text != "try")

/-- The type that names lead to from the top of another module. -/
def absoluteType (root : Path) (module : ModuleId) (names : List Ident) : Except Failure Ty := do
  let p := (← module.path root).appendIdents names
  if names.contains underscore || !beginsType p then .error .unusableName
  else .ok (.path p)

/-- Whether a definition can be referred to from inside the module, and the imports after that. -/
def claimHead (c : Context) (s : Symbol) (imports : ImportSet) : Bool × ImportSet :=
  if s.module == c.module then (true, imports)
  else if c.symbols.isLocal c.module s.head then (false, imports)
  else imports.insert s.head s.module

/-- The type that a full name refers to from `depth` levels inside the file, if there is one. -/
def reference? (c : Context) (fullName : String) (depth : Nat) : Binder (Option Ty) := do
  match c.types.extern? fullName with
  | some t => return some t
  | none =>
    match c.symbols.get? fullName with
    | none => return none
    | some s =>
      let names ← (s.path.mapM Ident.ofName : Except Failure (List Ident))
      let (relative, imports) := claimHead c s (← get).imports
      modify ({ · with imports })
      if relative then return some (← relativeType depth names)
      else return some (← absoluteType c.root s.module names)

end SchemaBindings.Binding
