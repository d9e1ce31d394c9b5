import SchemaBindings.Failure
import SchemaBindings.Lookup
import SchemaBindings.Settings
import SchemaBindings.Toml.Reader

/-!
Settings written as a TOML document. Everything may be left out, but nothing unknown may be there.
A group of settings can also be written as an array of its first values in order.
-/

namespace SchemaBindings.Settings

open SchemaBindings.Toml (Value Entries)

def text? : Value → Option String
  | .string text => some text
  | _ => none

def boolean? : Value → Option Bool
  | .boolean b => some b
  | _ => none

/-- The values of a group's keys, as far as they are given. -/
def group? (keys : List String) : Value → Option (List (Option Value))
  | .table _ entries =>
    if entries.all fun (key, _) => keys.contains key then
      some (keys.map fun key => entries.lookup key)
    else none
  | .array elements =>
    some ((elements.take keys.length).map some ++
      List.replicate (keys.length - elements.length) none)
  | .tables reversed =>
    let elements := reversed.reverse.map (Value.table .header)
    some ((elements.take keys.length).map some ++
      List.replicate (keys.length - elements.length) none)
  | _ => none

/-- A value that may be left out. -/
def read? (read : Value → Option α) (default : α) : Option Value → Option α
  | none => some default
  | some v => read v

def wrappers? (v : Value) : Option WrapperSettings := do
  let d : WrapperSettings := {}
  let [blockingUnary, blockingStream, suspendingUnary, suspendingStream] ← group?
    ["blocking_unary", "blocking_stream", "suspending_unary", "suspending_stream"] v | none
  return {
    blockingUnary := ← read? text? d.blockingUnary blockingUnary
    blockingStream := ← read? text? d.blockingStream blockingStream
    suspendingUnary := ← read? text? d.suspendingUnary suspendingUnary
    suspendingStream := ← read? text? d.suspendingStream suspendingStream }

def runtime? (v : Value) : Option RuntimeSettings := do
  let d : RuntimeSettings := {}
  let [messageDerive, enumDerive, fieldAttribute, result, metadata, blockingStub, suspendingStub,
      toWire, fromWire, trackingIdBlocking, trackingIdSuspending, logRequest, stream,
      errorWrappers] ← group?
    ["message_derive", "enum_derive", "field_attribute", "result", "metadata", "blocking_stub",
      "suspending_stub", "to_wire", "from_wire", "tracking_id_blocking", "tracking_id_suspending",
      "log_request", "stream", "error_wrappers"] v | none
  return {
    messageDerive := ← read? text? d.messageDerive messageDerive
    enumDerive := ← read? text? d.enumDerive enumDerive
    fieldAttribute := ← read? text? d.fieldAttribute fieldAttribute
    result := ← read? text? d.result result
    metadata := ← read? text? d.metadata metadata
    blockingStub := ← read? text? d.blockingStub blockingStub
    suspendingStub := ← read? text? d.suspendingStub suspendingStub
    toWire := ← read? text? d.toWire toWire
    fromWire := ← read? text? d.fromWire fromWire
    trackingIdBlocking := ← read? text? d.trackingIdBlocking trackingIdBlocking
    trackingIdSuspending := ← read? text? d.trackingIdSuspending trackingIdSuspending
    logRequest := ← read? text? d.logRequest logRequest
    stream := ← read? text? d.stream stream
    errorWrappers := ← read? wrappers? d.errorWrappers errorWrappers }

/-- The policy of a text, or of a table that maps the text to nothing. -/
def policy? : Value → Option UnimplementedPolicy
  | .string text => unimplementedPolicy? text
  | .table _ [(text, .table _ [])] | .table _ [(text, .array [])] => unimplementedPolicy? text
  | _ => none

/-- The key under which a date stands where a table is asked for. -/
def dateKey : String := "$__toml_private_datetime"

/-- A table of texts, sorted by key. -/
def texts? : Value → Option (List (String × String))
  | .table _ entries =>
    sortedByName <$> entries.mapM fun (key, v) => (text? v).map (key, ·)
  | .date text => some [(dateKey, text)]
  | _ => none

def ofEntries? (entries : Entries) : Option Settings := do
  let d : Settings := {}
  let [moduleRoot, asyncPrefix, unimplemented, moduleIndex, runtime, scalars, externTypes] ← group?
    ["module_root", "async_prefix", "unimplemented", "module_index", "runtime", "scalars",
      "extern_types"] (.table .header entries) | none
  return {
    moduleRoot := ← read? text? d.moduleRoot moduleRoot
    asyncPrefix := ← read? text? d.asyncPrefix asyncPrefix
    unimplemented := ← read? policy? d.unimplemented unimplemented
    moduleIndex := ← read? boolean? d.moduleIndex moduleIndex
    runtime := ← read? runtime? d.runtime runtime
    scalars := ← read? texts? d.scalars scalars
    externTypes := ← read? texts? d.externTypes externTypes }

/-- The settings that a document holds. -/
def ofToml (text : String) : Except Failure Settings :=
  match (Entries.ofText? text).bind ofEntries? with
  | some s => .ok s
  | none => .error .badSettings

end SchemaBindings.Settings
