import SchemaBindings.Json.Printer
import SchemaBindings.Json.Reader
import SchemaBindings.Schema

/-!
The JSON form of a schema file. Written, every key is present and in the order of declaration. Read,
keys may come in any order, unknown ones are skipped, a missing one-of group or documentation is
absent, and an entity may also be written as the array of all its parts. Nesting is limited: an
array or object at the 128th level is refused unless it is skipped.
-/

namespace SchemaBindings.Schema

open SchemaBindings.Json (Value)

def cardinalityText : Cardinality → String
  | .singular => "singular"
  | .optional => "optional"
  | .repeated => "repeated"

def cardinality? : String → Option Cardinality
  | "singular" => some .singular
  | "optional" => some .optional
  | "repeated" => some .repeated
  | _ => none

/-! ## Writing -/

def docsJson (docs : Option String) : Value :=
  .ofOption .text docs

def fieldTypeJson : FieldType → Value
  | .scalar kind => .record [("kind", .text "scalar"), ("name", .text kind)]
  | .named fullName => .record [("kind", .text "named"), ("name", .text fullName)]

def fieldJson (f : Field) : Value :=
  .record [("name", .text f.name), ("ty", fieldTypeJson f.type),
    ("cardinality", .text (cardinalityText f.cardinality)), ("number", .integer f.number),
    ("oneof", docsJson f.oneof), ("docs", docsJson f.docs)]

def enumValueJson (v : EnumValue) : Value :=
  .record [("label", .text v.label), ("number", .integer v.number), ("docs", docsJson v.docs)]

def enumJson (e : Enum) : Value :=
  .record [("name", .text e.name), ("values", .array (e.values.map enumValueJson)),
    ("docs", docsJson e.docs)]

def messageJson : Message → Value
  | ⟨name, fields, messages, enums, docs⟩ =>
    .record [("name", .text name), ("fields", .array (fields.map fieldJson)),
      ("messages", .array (messages.map messageJson)), ("enums", .array (enums.map enumJson)),
      ("docs", docsJson docs)]

def methodJson (m : Method) : Value :=
  .record [("name", .text m.name), ("input_type", .text m.inputType),
    ("output_type", .text m.outputType), ("client_streaming", .bool m.clientStreaming),
    ("server_streaming", .bool m.serverStreaming), ("docs", docsJson m.docs)]

def serviceJson (s : Service) : Value :=
  .record [("name", .text s.name), ("full_name", .text s.fullName),
    ("methods", .array (s.methods.map methodJson)), ("docs", docsJson s.docs)]

def fileJson (f : SchemaFile) : Value :=
  .record [("path", .text f.path), ("package", .text f.package),
    ("messages", .array (f.messages.map messageJson)), ("enums", .array (f.enums.map enumJson)),
    ("services", .array (f.services.map serviceJson))]

/-! ## Reading -/

/-- How many more levels of arrays and objects may be opened. -/
abbrev Depth := Nat

/-- The deepest level that can be opened. -/
def maxDepth : Depth := 127

def text? : Value → Option String
  | .string s => s
  | _ => none

def optionalText? : Value → Option (Option String)
  | .null => some none
  | .string (some s) => some (some s)
  | _ => none

def bool? : Value → Option Bool
  | .bool b => some b
  | _ => none

/-- An integer of 32 bits. -/
def int32? : Value → Option Int
  | .integer n => if -2147483648 ≤ n ∧ n ≤ 2147483647 then some n else none
  | _ => none

/-- The values of the known keys, each of which may occur once. -/
def knownMembers? (keys : List String) (members : List (Option String × Value)) :
    Option (List (Option Value)) := do
  if members.any (·.1.isNone) then none
  keys.mapM fun key =>
    match members.filter (·.1 == some key) with
    | [] => some none
    | [(_, v)] => some (some v)
    | _ => none

/-- The parts of an entity with the given keys; those from an object may be missing. -/
def parts? (keys : List String) (depth : Depth) (v : Value) :
    Option (List (Option Value) × Depth) :=
  match depth, v with
  | depth + 1, .object members => (knownMembers? keys members).map (·, depth)
  | depth + 1, .array elements =>
    if elements.length = keys.length then some (elements.map some, depth) else none
  | _, _ => none

def list? (depth : Depth) (element? : Depth → Value → Option α) : Value → Option (List α)
  | .array elements =>
    match depth with
    | 0 => none
    | depth + 1 => elements.mapM (element? depth)
  | _ => none

/-- A choice without contents: its name, or an object that maps it to null. -/
def choice? (depth : Depth) : Value → Option String
  | .string s => s
  | .object [(some name, .null)] => if depth = 0 then none else some name
  | _ => none

def fieldType? (depth : Depth) (v : Value) : Option FieldType := do
  let ([some kind, some name], depth) ← parts? ["kind", "name"] depth v | none
  let name ← text? name
  match ← choice? depth kind with
  | "scalar" => return .scalar name
  | "named" => return .named name
  | _ => none

def field? (depth : Depth) (v : Value) : Option Field := do
  let ([some name, some type, some cardinality, some number, oneof, docs], depth) ←
    parts? ["name", "ty", "cardinality", "number", "oneof", "docs"] depth v | none
  return {
    name := ← text? name
    type := ← fieldType? depth type
    cardinality := ← cardinality? (← choice? depth cardinality)
    number := ← int32? number
    oneof := ← optionalText? (oneof.getD .null)
    docs := ← optionalText? (docs.getD .null) }

def enumValue? (depth : Depth) (v : Value) : Option EnumValue := do
  let ([some label, some number, docs], _) ← parts? ["label", "number", "docs"] depth v | none
  return {
    label := ← text? label, number := ← int32? number, docs := ← optionalText? (docs.getD .null) }

def enum? (depth : Depth) (v : Value) : Option Enum := do
  let ([some name, some values, docs], depth) ← parts? ["name", "values", "docs"] depth v | none
  return {
    name := ← text? name, values := ← list? depth enumValue? values
    docs := ← optionalText? (docs.getD .null) }

/-- A message at a level; each nested message uses up two levels. -/
def message? (depth : Depth) (v : Value) : Option Message :=
  match depth with
  | depth + 2 => do
    let ([some name, some fields, some messages, some enums, docs], _) ←
      parts? ["name", "fields", "messages", "enums", "docs"] (depth + 2) v | none
    let .array messages := messages | none
    return {
      name := ← text? name, fields := ← list? (depth + 1) field? fields
      messages := ← messages.mapM (message? depth)
      enums := ← list? (depth + 1) enum? enums, docs := ← optionalText? (docs.getD .null) }
  | _ => none

def method? (depth : Depth) (v : Value) : Option Method := do
  let ([some name, some input, some output, some client, some server, docs], _) ←
    parts? ["name", "input_type", "output_type", "client_streaming", "server_streaming", "docs"]
      depth v | none
  return {
    name := ← text? name, inputType := ← text? input, outputType := ← text? output
    clientStreaming := ← bool? client, serverStreaming := ← bool? server
    docs := ← optionalText? (docs.getD .null) }

def service? (depth : Depth) (v : Value) : Option Service := do
  let ([some name, some fullName, some methods, docs], depth) ←
    parts? ["name", "full_name", "methods", "docs"] depth v | none
  return {
    name := ← text? name, fullName := ← text? fullName, methods := ← list? depth method? methods
    docs := ← optionalText? (docs.getD .null) }

def file? (depth : Depth) (v : Value) : Option SchemaFile := do
  let ([some path, some package, some messages, some enums, some services], depth) ←
    parts? ["path", "package", "messages", "enums", "services"] depth v | none
  return {
    path := ← text? path, package := ← text? package, messages := ← list? depth message? messages
    enums := ← list? depth enum? enums, services := ← list? depth service? services }

end Schema

def SchemaFile.toJsonText (f : SchemaFile) : String :=
  (Schema.fileJson f).compactText

def SchemaFile.ofJsonText? (text : String) : Option SchemaFile := do
  Schema.file? Schema.maxDepth (← Json.Value.ofText? text)

end SchemaBindings
