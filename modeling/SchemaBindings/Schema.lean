/-!
Schema entities: the files of a schema with their messages, enums and services. Names inside an
entity are simple; references to definitions are full names without a leading dot.
-/

namespace SchemaBindings

/-- The type of a field: a scalar kind, or the full name of a message or an enum. -/
inductive FieldType where
  | scalar (kind : String)
  | named (fullName : String)
deriving DecidableEq, Repr, Inhabited

inductive Cardinality where
  | singular
  | optional
  | repeated
deriving DecidableEq, Repr, Inhabited

/-- A field of a message. Members of a one-of group are optional. -/
structure Field where
  name : String
  type : FieldType
  cardinality : Cardinality := .singular
  number : Int
  oneof : Option String := none
  docs : Option String := none
deriving DecidableEq, Repr, Inhabited

structure EnumValue where
  label : String
  number : Int
  docs : Option String := none
deriving DecidableEq, Repr, Inhabited

structure Enum where
  name : String
  values : List EnumValue := []
  docs : Option String := none
deriving DecidableEq, Repr, Inhabited

/-- A message with the messages and enums that are nested in it. -/
structure Message where
  name : String
  fields : List Field := []
  messages : List Message := []
  enums : List Enum := []
  docs : Option String := none
deriving Repr, Inhabited

structure Method where
  name : String
  inputType : String
  outputType : String
  clientStreaming : Bool := false
  serverStreaming : Bool := false
  docs : Option String := none
deriving DecidableEq, Repr, Inhabited

structure Service where
  name : String
  fullName : String
  methods : List Method := []
  docs : Option String := none
deriving DecidableEq, Repr, Inhabited

structure SchemaFile where
  path : String
  package : String
  messages : List Message := []
  enums : List Enum := []
  services : List Service := []
deriving Repr, Inhabited

/-- A name inside a scope; the empty scope adds nothing. -/
def qualify (scope name : String) : String :=
  if scope.isEmpty then name else scope ++ "." ++ name

/-- A reference to a definition, which may begin with dots. -/
def withoutLeadingDots (reference : String) : String :=
  String.ofList (reference.toList.dropWhile (· == '.'))

def FieldType.ofReference (reference : String) : FieldType :=
  .named (withoutLeadingDots reference)

namespace Field

def asRepeated (f : Field) : Field :=
  { f with cardinality := .repeated }

def asOptional (f : Field) : Field :=
  { f with cardinality := .optional }

def inOneof (f : Field) (group : String) : Field :=
  { f with cardinality := .optional, oneof := some group }

end Field

namespace Message

/-- Whether messages or enums are nested in the message. -/
def hasNested (m : Message) : Bool :=
  !m.messages.isEmpty || !m.enums.isEmpty

def withMessage (m nested : Message) : Message :=
  { m with messages := m.messages ++ [nested] }

def withEnum (m : Message) (nested : Enum) : Message :=
  { m with enums := m.enums ++ [nested] }

end Message

/-- A unary method between two references. -/
def Method.between (name input output : String) : Method :=
  { name, inputType := withoutLeadingDots input, outputType := withoutLeadingDots output }

def Method.streaming (m : Method) (client server : Bool) : Method :=
  { m with clientStreaming := client, serverStreaming := server }

def Service.inPackage (package name : String) (methods : List Method) : Service :=
  { name, fullName := qualify package name, methods }

/-- The full name of a top-level definition of the file. -/
def SchemaFile.qualify (f : SchemaFile) (name : String) : String :=
  SchemaBindings.qualify f.package name

end SchemaBindings
