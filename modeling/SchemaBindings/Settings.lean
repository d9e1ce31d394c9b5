import SchemaBindings.Failure
import SchemaBindings.Service.Shape

/-!
The settings of a run, with the defaults they have where nothing else is said. Types, paths and
identifiers are still texts here.
-/

namespace SchemaBindings

/-- The attributes that convert errors, by mode and by whether responses are a stream. -/
structure WrapperSettings where
  blockingUnary : String := "::protobind_runtime::errors::handle_request_error"
  blockingStream : String := "::protobind_runtime::errors::handle_request_error_gen"
  suspendingUnary : String := "::protobind_runtime::errors::handle_aio_request_error"
  suspendingStream : String := "::protobind_runtime::errors::handle_aio_request_error_gen"
deriving Repr, DecidableEq

/-- Where generated code finds what it needs at run time. -/
structure RuntimeSettings where
  messageDerive : String := "::protobind_runtime::Message"
  enumDerive : String := "::protobind_runtime::Enumeration"
  fieldAttribute : String := "message_field"
  result : String := "::protobind_runtime::Result"
  metadata : String := "::protobind_runtime::Metadata"
  blockingStub : String := "::protobind_runtime::BlockingStub"
  suspendingStub : String := "::protobind_runtime::Stub"
  toWire : String := "::protobind_runtime::marshal::to_wire"
  fromWire : String := "::protobind_runtime::marshal::from_wire"
  trackingIdBlocking : String := "::protobind_runtime::logging::tracking_id_from_call"
  trackingIdSuspending : String := "::protobind_runtime::logging::tracking_id_from_future"
  logRequest : String := "::protobind_runtime::logging::log_request"
  stream : String := "::futures"
  errorWrappers : WrapperSettings := {}
deriving Repr, DecidableEq

/-- The settings of a run. Tables map keys to types and are sorted by key. -/
structure Settings where
  moduleRoot : String := "crate"
  asyncPrefix : String := "Async"
  unimplemented : UnimplementedPolicy := .stub
  moduleIndex : Bool := false
  runtime : RuntimeSettings := {}
  scalars : List (String × String) := []
  externTypes : List (String × String) := []
deriving Repr, DecidableEq

/-- Reads the text of a setting, which is refused if it cannot be read. -/
def Settings.readText (key : String) (read? : String → Option α) (text : String) :
    Except Failure α :=
  match read? text with
  | some a => .ok a
  | none => .error (.badSetting key text)

end SchemaBindings
