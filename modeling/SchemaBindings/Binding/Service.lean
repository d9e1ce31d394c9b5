import SchemaBindings.Binding.Message

/-!
The two clients of a service, one that blocks and one that suspends. Each is a structure that holds
a stub and the metadata of its calls, with a function for every method.
-/

namespace SchemaBindings.Binding

open Code

/-- The function names that every client has already. -/
def clientFunctions : List String := ["new"]

/-- The name of a client. -/
def clientName (c : Context) (mode : Mode) (s : Service) : String :=
  match mode with
  | .blocking => Naming.typeName s.name
  | .suspending => SymbolTable.suspendingName c.asyncPrefix s

/-- Notes a method that is not supported, once for both clients, or refuses it. -/
def noteUnsupported (c : Context) (mode : Mode) (s : Service) (m : Method) : Binder Unit := do
  if m.shape.isSupported then return
  if c.unimplemented = .failFast then throw (.unsupportedMethod s.fullName m.name)
  if mode = .blocking then
    modify fun notes => { notes with stubbed := notes.stubbed ++ [s.fullName ++ "." ++ m.name] }

/-- The type of a request or a response. -/
def methodType (c : Context) (s : Service) (m : Method) (fullName : String) : Binder Ty := do
  match ← reference? c fullName 0 with
  | some t => return t
  | none => throw (.unresolvedType s.fullName m.name fullName)

/-- The functions of methods in order, with names that differ. -/
def methodFunctions (c : Context) (mode : Mode) (s : Service) :
    List Method → Naming.Table → Binder (List Function)
  | [], _ => return []
  | m :: rest, names => do
    noteUnsupported c mode s m
    let request ← methodType c s m m.inputType
    let response ← methodType c s m m.outputType
    let (name, names) := names.assignUnique (Naming.methodName m.name)
    let name ← Ident.ofName name
    let call : Call := ⟨s.fullName, m, mode, name, request, response⟩
    return call.function c.library :: (← methodFunctions c mode s rest names)

/-- The function that makes a client from its stub and its metadata. -/
def constructor (c : Context) (mode : Mode) : Function where
  attributes := []
  isAsync := false
  name := ⟨"new"⟩
  receiver := .none
  parameters := [⟨⟨"stub"⟩, c.library.stub mode⟩, ⟨⟨"metadata"⟩, c.library.metadata⟩]
  output := .path (.ofNames false ["Self"])
  body := [.result (.ofVariables (.ofNames false ["Self"]) ["stub", "metadata"])]

def clientSummary (mode : Mode) (s : Service) : String :=
  let kind := match mode with
    | .blocking => "Blocking"
    | .suspending => "Async"
  " " ++ kind ++ " client for \x60" ++ s.fullName ++ "\x60."

/-- The documentation of a client: a summary, and after an empty line that of the service. -/
def clientDocs (mode : Mode) (s : Service) : List Attribute :=
  .doc (clientSummary mode s) ::
    ((if s.docs.isSome then [.doc ""] else []) ++ docAttributes s.docs)

/-- The client of a service in a mode. -/
def clientItems (c : Context) (mode : Mode) (s : Service) : Binder (List Item) := do
  let name ← Ident.ofName (clientName c mode s)
  let functions ← methodFunctions c mode s s.methods
    { scope := name.text, reserved := clientFunctions }
  return [
    .struct (clientDocs mode s) name
      [⟨[], false, ⟨"stub"⟩, c.library.stub mode⟩, ⟨[], false, ⟨"metadata"⟩, c.library.metadata⟩],
    .client name (some s.fullName) (constructor c mode :: functions)]

/-- Both clients of services in order. -/
def serviceItems (c : Context) : List Service → Binder (List Item)
  | [] => return []
  | s :: rest => do
    let blocking ← clientItems c .blocking s
    let suspending ← clientItems c .suspending s
    return blocking ++ suspending ++ (← serviceItems c rest)

end SchemaBindings.Binding
