import SchemaBindings.Schema

/-!
How a method streams, how its client runs, and which of the two together are supported.
-/

namespace SchemaBindings

/-- Whether a client blocks or suspends while it waits. -/
inductive Mode where
  | blocking
  | suspending
deriving DecidableEq, Repr

def Mode.text : Mode → String
  | .blocking => "blocking"
  | .suspending => "suspending"

/-- Which sides of a call are streams. -/
structure Shape where
  inputIsStream : Bool
  outputIsStream : Bool
deriving DecidableEq, Repr

def sideText (isStream : Bool) : String :=
  if isStream then "stream" else "unary"

def Shape.text (s : Shape) : String :=
  sideText s.inputIsStream ++ "-" ++ sideText s.outputIsStream

/-- A stream of requests with a single response is not supported. -/
def Shape.isSupported (s : Shape) : Bool :=
  !s.inputIsStream || s.outputIsStream

def Method.shape (m : Method) : Shape :=
  ⟨m.clientStreaming, m.serverStreaming⟩

/-- The name of the way in which a method of this shape is generated. -/
def Shape.strategyText (s : Shape) (mode : Mode) : String :=
  mode.text ++ "-" ++ s.text

/-- What becomes of a method that is not supported. -/
inductive UnimplementedPolicy where
  /-- Its body refuses to run. -/
  | stub
  /-- Generation fails. -/
  | failFast
deriving DecidableEq, Repr

def UnimplementedPolicy.text : UnimplementedPolicy → String
  | .stub => "stub"
  | .failFast => "fail-fast"

def unimplementedPolicy? : String → Option UnimplementedPolicy
  | "stub" => some .stub
  | "fail-fast" => some .failFast
  | _ => none

end SchemaBindings
