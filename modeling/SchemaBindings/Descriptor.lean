import SchemaBindings.Schema
import SchemaBindings.Text.Blank

/-!
Descriptors of compiled schema files, and the schema entities they stand for. Entities keep the
order and the nesting of the descriptors; their documentation is the leading comment at their place.
-/

namespace SchemaBindings

namespace Descriptor

/-- The types of fields, by their numbers from one on. -/
inductive Kind where
  | double | float | int64 | uint64 | int32 | fixed64 | fixed32 | bool | string
  | group | message | bytes | uint32 | enum | sfixed32 | sfixed64 | sint32 | sint64
deriving DecidableEq, Repr

def Kind.text : Kind → String
  | .double => "double" | .float => "float" | .int64 => "int64" | .uint64 => "uint64"
  | .int32 => "int32" | .fixed64 => "fixed64" | .fixed32 => "fixed32" | .bool => "bool"
  | .string => "string" | .group => "group" | .message => "message" | .bytes => "bytes"
  | .uint32 => "uint32" | .enum => "enum" | .sfixed32 => "sfixed32" | .sfixed64 => "sfixed64"
  | .sint32 => "sint32" | .sint64 => "sint64"

def Kind.all : List Kind :=
  [.double, .float, .int64, .uint64, .int32, .fixed64, .fixed32, .bool, .string, .group, .message,
   .bytes, .uint32, .enum, .sfixed32, .sfixed64, .sint32, .sint64]

/-- The type with a number; a number without one is read as the first. -/
def Kind.ofNumber (n : Int) : Kind :=
  if n < 1 then .double else (Kind.all[n.toNat - 1]?).getD .double

inductive Label where
  | optional
  | required
  | repeated
deriving DecidableEq, Repr

/-- The label with a number; a number without one is read as the first. -/
def Label.ofNumber : Int → Label
  | 2 => .required
  | 3 => .repeated
  | _ => .optional

structure Field where
  name : String
  number : Int
  label : Label := .optional
  kind : Kind := .double
  typeName : String := ""
  /-- The place of the field's group among the groups of its message. -/
  oneofIndex : Option Int := none
  /-- Whether the group was made only to say that the field may be absent. -/
  isOptionalAlone : Bool := false
deriving Repr, Inhabited

structure EnumValue where
  name : String
  number : Int
deriving Repr, Inhabited

structure Enum where
  name : String
  values : List EnumValue := []
deriving Repr, Inhabited

structure Message where
  name : String
  fields : List Field := []
  messages : List Message := []
  enums : List Enum := []
  oneofs : List String := []
deriving Repr, Inhabited

structure Method where
  name : String
  inputType : String
  outputType : String
  clientStreaming : Bool := false
  serverStreaming : Bool := false
deriving Repr, Inhabited

structure Service where
  name : String
  methods : List Method := []
deriving Repr, Inhabited

/-- A comment in front of the entity that a path leads to. -/
structure Location where
  path : List Int
  leading : String
deriving Repr, Inhabited

structure File where
  package : String := ""
  syntaxName : String := ""
  messages : List Message := []
  enums : List Enum := []
  services : List Service := []
  locations : List Location := []
deriving Repr, Inhabited

/-! ## Conversion -/

/-- What all conversions of a file look at: its comments, and whether fields without a label are
always present. -/
structure Source where
  isProto3 : Bool
  locations : List Location

/-- The last comment at a path that is not blank, trimmed. -/
def Source.docs? (s : Source) (path : List Int) : Option String :=
  (s.locations.filterMap fun l =>
    let text := Text.trimmed l.leading
    if l.path == path && !text.isEmpty then some text else none).getLast?

/-- The name of the group of a field, unless the group was made for this field alone. -/
def Message.oneofOf? (m : Message) (f : Field) : Option String :=
  match f.oneofIndex with
  | some index => if f.isOptionalAlone || index < 0 then none else m.oneofs[index.toNat]?
  | none => none

def Field.cardinality (s : Source) (oneof : Option String) (f : Field) : Cardinality :=
  if f.label = .repeated then .repeated
  else if f.isOptionalAlone || oneof.isSome then .optional
  else if !s.isProto3 && f.label = .optional then .optional
  else .singular

def Field.type (f : Field) : FieldType :=
  match f.kind with
  | .message | .enum => .ofReference f.typeName
  | kind => .scalar kind.text

def Field.convert (s : Source) (owner : Message) (path : List Int) (f : Field) :
    SchemaBindings.Field :=
  let oneof := owner.oneofOf? f
  { name := f.name, type := f.type, cardinality := f.cardinality s oneof, number := f.number
    oneof, docs := s.docs? path }

/-- The path of a child: its kind among the parts of its parent, and its place. A place in a
descriptor is below `2 ^ 31`, as no more bytes are ever read as one. -/
def childPath (parent : List Int) (part : Int) (place : Nat) : List Int :=
  parent ++ [part, (place : Int)]

def Enum.convert (s : Source) (path : List Int) (e : Enum) : SchemaBindings.Enum :=
  { name := e.name
    values := e.values.mapIdx fun i v =>
      { label := v.name, number := v.number, docs := s.docs? (childPath path 2 i) }
    docs := s.docs? path }

mutual

def Message.convert (s : Source) (path : List Int) : Message → SchemaBindings.Message
  | ⟨name, fields, messages, enums, oneofs⟩ =>
    { name
      fields := fields.mapIdx fun i f =>
        f.convert s ⟨name, fields, messages, enums, oneofs⟩ (childPath path 2 i)
      messages := convertMessages s path 3 0 messages
      enums := enums.mapIdx fun i e => e.convert s (childPath path 4 i)
      docs := s.docs? path }

/-- Converts messages, of which the first has the given place among the parts of the parent. -/
def convertMessages (s : Source) (parent : List Int) (part : Int) (place : Nat) :
    List Message → List SchemaBindings.Message
  | [] => []
  | m :: rest =>
    m.convert s (childPath parent part place) :: convertMessages s parent part (place + 1) rest

end

def Service.convert (s : Source) (package : String) (path : List Int) (v : Service) :
    SchemaBindings.Service :=
  { name := v.name, fullName := qualify package v.name
    methods := v.methods.mapIdx fun i m =>
      { name := m.name, inputType := withoutLeadingDots m.inputType
        outputType := withoutLeadingDots m.outputType, clientStreaming := m.clientStreaming
        serverStreaming := m.serverStreaming, docs := s.docs? (childPath path 2 i) }
    docs := s.docs? path }

/-- The schema file at a path that a descriptor stands for. -/
def File.convert (path : String) (f : File) : SchemaFile :=
  let s : Source := ⟨f.syntaxName == "proto3", f.locations⟩
  { path, package := f.package
    messages := convertMessages s [] 4 0 f.messages
    enums := f.enums.mapIdx fun i e => e.convert s (childPath [] 5 i)
    services := f.services.mapIdx fun i v => v.convert s f.package (childPath [] 6 i) }

end Descriptor

end SchemaBindings
