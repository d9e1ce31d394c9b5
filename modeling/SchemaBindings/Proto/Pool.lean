import SchemaBindings.Proto.Lowering

/-!
Files that have been compiled, each after the files it imports. A new file is compiled against them:
its names have to be new, it may refer to what it imports, and its descriptor is added at the end.
-/

namespace SchemaBindings.Proto

/-- A file with its descriptor, and what is defined in it by full names. -/
structure CompiledFile where
  path : String
  source : FileSource
  definitions : Definitions
  descriptor : Descriptor.File
  messages : List (String × Descriptor.Message)
  enums : List (String × Descriptor.Enum)
  extensions : List (String × Extension)
deriving Inhabited

/-- Compiled files, those that are imported before those that import them. -/
abbrev Pool := List CompiledFile

/-! ## Descriptors by full names -/

mutual

/-- A message in a scope with the messages that are nested in it. -/
def withNested (scope : String) : Descriptor.Message → List (String × Descriptor.Message)
  | ⟨name, fields, messages, enums, oneofs⟩ =>
    (qualify scope name, ⟨name, fields, messages, enums, oneofs⟩) ::
      allWithNested (qualify scope name) messages

def allWithNested (scope : String) : List Descriptor.Message → List (String × Descriptor.Message)
  | [] => []
  | m :: rest => withNested scope m ++ allWithNested scope rest

end

def enumsIn (scope : String) (enums : List Descriptor.Enum) : List (String × Descriptor.Enum) :=
  enums.map fun e => (qualify scope e.name, e)

/-- A file after its lowering. -/
def CompiledFile.ofDescriptor (path : String) (source : FileSource) (descriptor : Descriptor.File)
    (extensions : List (String × Extension)) : CompiledFile :=
  let messages := allWithNested descriptor.package descriptor.messages
  { path, source, descriptor, messages, extensions
    definitions := source.definitions
    enums := enumsIn descriptor.package descriptor.enums ++
      messages.flatMap fun (name, m) => enumsIn name m.enums }

namespace Pool

def file? (pool : Pool) (path : String) : Option CompiledFile :=
  pool.find? (·.path == path)

def definitions (pool : Pool) : Definitions :=
  pool.flatMap (·.definitions)

/-- The paths of the files that a source may refer to: those it imports, and what these pass on. -/
def visiblePaths (pool : Pool) (source : FileSource) : List String :=
  (source.imports.flatMap fun i =>
    let passedOn := match pool.file? i.path with
      | some f => (f.source.imports.filter (·.isPublic)).map (·.path)
      | none => []
    i.path :: passedOn).eraseDups

/-- What the references of a source are resolved by. -/
def view (pool : Pool) (source : FileSource) : NameView :=
  let own := source.definitions
  let visible := own ++
    (pool.visiblePaths source).flatMap fun path => ((pool.file? path).map (·.definitions)).getD []
  let all := pool.definitions ++ own
  ⟨fun name => all.lookup name, fun name => visible.lookup name⟩

/-- Adds a file whose imports are there, whatever its options are. -/
def push? (pool : Pool) (path : String) (source : FileSource) : Option Pool := do
  if !areDistinct pool.definitions source.definitions then none
  let (descriptor, extensions) ← source.lower? (pool.view source)
  return pool ++ [.ofDescriptor path source descriptor extensions]

def message? (pool : Pool) (name : String) : Option Descriptor.Message :=
  pool.findSome? fun f => f.messages.lookup name

def enum? (pool : Pool) (name : String) : Option Descriptor.Enum :=
  pool.findSome? fun f => f.enums.lookup name

end Pool

/-! ## Fields -/

/-- A field or an extension of a message, as values see it. -/
structure Slot where
  field : Descriptor.Field
  /-- Whether the field can be set to what it holds if it is not set. -/
  hasPresence : Bool
deriving Inhabited

namespace Slot

def isRepeated (s : Slot) : Bool := s.field.label == .repeated

def isMessage (s : Slot) : Bool :=
  s.field.kind == .message || s.field.kind == .group

/-- The full name of the field's type. -/
def typeName (s : Slot) : String := withoutLeadingDots s.field.typeName

/-- A field of a file. -/
def ofField (isProto3 : Bool) (f : Descriptor.Field) : Slot :=
  let s : Slot := ⟨f, true⟩
  { s with hasPresence := f.isOptionalAlone || f.oneofIndex.isSome ||
      (!s.isRepeated && (s.isMessage || !isProto3)) }

end Slot

namespace Pool

/-- A field of a message that a test accepts. -/
def slot? (pool : Pool) (message : String) (accepts : Descriptor.Field → Bool) : Option Slot :=
  pool.findSome? fun f => do
    let m ← f.messages.lookup message
    return .ofField f.source.isProto3 (← m.fields.find? accepts)

def field? (pool : Pool) (message name : String) : Option Slot :=
  pool.slot? message (·.name == name)

/-- A field of a message inside a value in braces, where a group is named by its message. -/
def fieldInside? (pool : Pool) (message name : String) : Option Slot :=
  pool.slot? message fun f =>
    if f.kind == .group then f.typeName.endsWith ("." ++ name) && f.name == groupFieldName name
    else f.name == name

/-- The extension with a full name, if it extends the message. -/
def extension? (pool : Pool) (message name : String) : Option Slot :=
  pool.findSome? fun f => do
    let e ← f.extensions.lookup name
    if e.extendee == message then some (.ofField f.source.isProto3 e.field) else none

/-- The fields of a message that exclude each other with a field of it. -/
def alternatives (pool : Pool) (message : String) (s : Slot) : List Descriptor.Field :=
  match s.field.oneofIndex, pool.message? message with
  | some index, some m => m.fields.filter (·.oneofIndex == some index)
  | _, _ => []

end Pool

end SchemaBindings.Proto
