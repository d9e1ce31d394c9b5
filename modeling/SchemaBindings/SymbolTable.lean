import SchemaBindings.Lookup
import SchemaBindings.ModuleId
import SchemaBindings.Naming.Table
import SchemaBindings.Schema

/-!
Where every message and every enum of a package is defined. Building the table claims all names of
all scopes, so two definitions that would get one name are found before anything is generated.
-/

namespace SchemaBindings

inductive SymbolKind where
  | message
  | enum
deriving DecidableEq, Repr

/-- A definition: its module, its path inside the module, and what it is. -/
structure Symbol where
  module : ModuleId
  path : List String
  kind : SymbolKind
deriving DecidableEq, Repr

/-- The item of the module that the path begins with. -/
def Symbol.head (s : Symbol) : String :=
  s.path.head?.getD ""

def Symbol.name (s : Symbol) : String :=
  s.path.getLast?.getD ""

/-- The definitions of a package by full name, the names at the top of its modules, and for each
message the messages that its fields hold other than as repeated ones. -/
structure SymbolTable where
  symbols : List (String × Symbol) := []
  locals : List (ModuleId × Naming.Table) := []
  contents : List (String × List String) := []

namespace SymbolTable

def get? (t : SymbolTable) (fullName : String) : Option Symbol :=
  t.symbols.lookup fullName

/-- Whether the name is one at the top of the module. -/
def isLocal (t : SymbolTable) (module : ModuleId) (name : String) : Bool :=
  ((t.locals.lookup module).map (·.contains name)).getD false

def insert (t : SymbolTable) (fullName : String) (s : Symbol) : SymbolTable :=
  { t with symbols := insertByName fullName s t.symbols }

/-- Registers enums in a scope; `parent` is the path of the scope inside the module. -/
def registerEnums (module : ModuleId) (scope : String) (parent : List String) :
    List Enum → SymbolTable × Naming.Table → Except Failure (SymbolTable × Naming.Table)
  | [], state => .ok state
  | e :: rest, (t, names) => do
    let (name, names) ← names.assign (Naming.typeName e.name)
    registerEnums module scope parent rest
      (t.insert (qualify scope e.name) ⟨module, parent ++ [name], .enum⟩, names)

mutual

/-- Registers a message and what is nested in it. A message with nested definitions also claims the
name of the module that holds them. -/
def registerMessage (module : ModuleId) (scope : String) (parent : List String) :
    Message → SymbolTable × Naming.Table → Except Failure (SymbolTable × Naming.Table)
  | ⟨messageName, _, messages, enums, _⟩, (t, names) => do
    let fullName := qualify scope messageName
    let (name, names) ← names.assign (Naming.typeName messageName)
    let t := t.insert fullName ⟨module, parent ++ [name], .message⟩
    if messages.isEmpty && enums.isEmpty then return (t, names)
    let (nested, names) ← names.assign (Naming.moduleName messageName)
    let inner := parent ++ [nested]
    let state ← registerEnums module fullName inner enums (t, { scope := fullName })
    let (t, _) ← registerMessages module fullName inner messages state
    return (t, names)

def registerMessages (module : ModuleId) (scope : String) (parent : List String) :
    List Message → SymbolTable × Naming.Table → Except Failure (SymbolTable × Naming.Table)
  | [], state => .ok state
  | m :: rest, state => do
    registerMessages module scope parent rest (← registerMessage module scope parent m state)

end

/-- The name of the suspending client of a service. -/
def suspendingName (asyncPrefix : String) (s : Service) : String :=
  Naming.typeName (asyncPrefix ++ Naming.typeName s.name)

/-- Claims the names of both clients of every service. -/
def claimClients (asyncPrefix : String) :
    List Service → Naming.Table → Except Failure Naming.Table
  | [], names => .ok names
  | s :: rest, names => do
    let (_, names) ← names.assign (Naming.typeName s.name)
    let (_, names) ← names.assign (suspendingName asyncPrefix s)
    claimClients asyncPrefix rest names

def registerFile (asyncPrefix : String) (t : SymbolTable) (f : SchemaFile) :
    Except Failure SymbolTable := do
  let module := ModuleId.ofSchemaPath f.path
  let state ← registerEnums module f.package [] f.enums (t, { scope := module.text })
  let (t, names) ← registerMessages module f.package [] f.messages state
  let names ← claimClients asyncPrefix f.services names
  return { t with locals := insertSorted ModuleId.before module names t.locals }

/-- Registers files, each of which claims its module first. -/
def registerFiles (asyncPrefix : String) :
    List SchemaFile → SymbolTable × Naming.Table → Except Failure SymbolTable
  | [], (t, _) => .ok t
  | f :: rest, (t, modules) => do
    let (_, modules) ← modules.assign (ModuleId.ofSchemaPath f.path).text
    registerFiles asyncPrefix rest (← registerFile asyncPrefix t f, modules)

/-- The messages that a field holds inline. -/
def heldMessage? (t : SymbolTable) (f : Field) : Option String :=
  match f.type with
  | .scalar _ => none
  | .named fullName =>
    if f.cardinality != .repeated && (t.get? fullName).any (·.kind == .message) then some fullName
    else none

mutual

/-- Records what a message and the messages nested in it hold. -/
def recordContents (scope : String) : Message → SymbolTable → SymbolTable
  | ⟨name, fields, messages, _, _⟩, t =>
    let fullName := qualify scope name
    let held := (fields.filterMap t.heldMessage?).foldl (fun names n => insertName n names) []
    let t := if held.isEmpty then t
      else { t with contents := insertByName fullName held t.contents }
    recordAllContents fullName messages t

def recordAllContents (scope : String) : List Message → SymbolTable → SymbolTable
  | [], t => t
  | m :: rest, t => recordAllContents scope rest (recordContents scope m t)

end

/-- The table of a package. -/
def build (files : List SchemaFile) (asyncPrefix : String) : Except Failure SymbolTable := do
  let t ← registerFiles asyncPrefix files ({}, { scope := "package" })
  return files.foldl (fun t f => recordAllContents f.package f.messages t) t

/-- Whether `owner` is met on a search from the queued messages; what was seen is not searched
again. -/
def meets (t : SymbolTable) (owner : String) : Nat → List String → List String → Bool
  | _, _, [] => false
  | 0, _, _ => false
  | fuel + 1, seen, current :: queue =>
    if current == owner then true
    else if seen.contains current then t.meets owner fuel seen queue
    else t.meets owner fuel (current :: seen) (queue ++ (t.contents.lookup current).getD [])

/-- Whether a message that holds `target` inline would lead back to `owner`. Everything is queued
once by each message that holds it, which bounds the search. -/
def isRecursive (t : SymbolTable) (owner target : String) : Bool :=
  t.meets owner ((t.contents.flatMap (·.2)).length + 2) [] [target]

end SymbolTable

end SchemaBindings
