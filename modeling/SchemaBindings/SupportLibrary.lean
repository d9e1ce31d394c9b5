import SchemaBindings.Code.Tree.Reader
import SchemaBindings.Settings

/-!
The library that generated code is written against, with its paths and types read from the settings.
-/

namespace SchemaBindings

open Code

/-- The paths and types through which generated code reaches the library. -/
structure SupportLibrary where
  messageDerive : Path
  enumDerive : Path
  fieldAttribute : Ident
  result : Path
  metadata : Ty
  blockingStub : Ty
  suspendingStub : Ty
  toWire : Path
  fromWire : Path
  trackingIdBlocking : Path
  trackingIdSuspending : Path
  logRequest : Path
  stream : Path
  blockingUnary : Path
  blockingStream : Path
  suspendingUnary : Path
  suspendingStream : Path

namespace SupportLibrary

/-- Reads the text of a setting in the group of the library. -/
def readText (key : String) (read? : String → Option α) (text : String) : Except Failure α :=
  Settings.readText ("runtime." ++ key) read? text

def ofSettings (s : RuntimeSettings) : Except Failure SupportLibrary := do
  let w := s.errorWrappers
  return {
    messageDerive := ← readText "message_derive" Path.read? s.messageDerive
    enumDerive := ← readText "enum_derive" Path.read? s.enumDerive
    fieldAttribute := ← readText "field_attribute" Ident.read? s.fieldAttribute
    result := ← readText "result" Path.read? s.result
    metadata := ← readText "metadata" Ty.read? s.metadata
    blockingStub := ← readText "blocking_stub" Ty.read? s.blockingStub
    suspendingStub := ← readText "suspending_stub" Ty.read? s.suspendingStub
    toWire := ← readText "to_wire" Path.read? s.toWire
    fromWire := ← readText "from_wire" Path.read? s.fromWire
    trackingIdBlocking := ← readText "tracking_id_blocking" Path.read? s.trackingIdBlocking
    trackingIdSuspending := ← readText "tracking_id_suspending" Path.read? s.trackingIdSuspending
    logRequest := ← readText "log_request" Path.read? s.logRequest
    stream := ← readText "stream" Path.read? s.stream
    blockingUnary := ← readText "error_wrappers.blocking_unary" Path.read? w.blockingUnary
    blockingStream := ← readText "error_wrappers.blocking_stream" Path.read? w.blockingStream
    suspendingUnary := ← readText "error_wrappers.suspending_unary" Path.read? w.suspendingUnary
    suspendingStream :=
      ← readText "error_wrappers.suspending_stream" Path.read? w.suspendingStream }

def stub (l : SupportLibrary) : Mode → Ty
  | .blocking => l.blockingStub
  | .suspending => l.suspendingStub

def trackingId (l : SupportLibrary) : Mode → Path
  | .blocking => l.trackingIdBlocking
  | .suspending => l.trackingIdSuspending

/-- The attribute that converts the errors of a method. -/
def errorWrapper (l : SupportLibrary) (mode : Mode) (outputIsStream : Bool) : Path :=
  match mode, outputIsStream with
  | .blocking, false => l.blockingUnary
  | .blocking, true => l.blockingStream
  | .suspending, false => l.suspendingUnary
  | .suspending, true => l.suspendingStream

end SupportLibrary

end SchemaBindings
