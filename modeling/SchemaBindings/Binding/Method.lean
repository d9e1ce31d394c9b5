import SchemaBindings.Code.Quoted
import SchemaBindings.Docs
import SchemaBindings.SupportLibrary

/-!
The function of a client that stands for a method of its service. It writes the request to the wire,
calls the stub, logs the call once, and reads the response or, one by one as they are asked for, the
responses. A stream of requests with a single response gets a body that refuses to run.
-/

namespace SchemaBindings.Binding

open Code

/-- The documentation attributes of a comment. -/
def docAttributes (docs : Option String) : List Attribute :=
  (Docs.render docs).map .doc

/-- A literal that holds a text. -/
def textLiteral (text : String) : Expr :=
  .literal (quoted text)

/-- A method with everything resolved that its function needs. -/
structure Call where
  /-- The wire name of the service. -/
  service : String
  method : Method
  mode : Mode
  name : Ident
  request : Ty
  response : Ty

namespace Call

def shape (c : Call) : Shape :=
  c.method.shape

def wireName (c : Call) : Expr :=
  textLiteral c.method.name

/-- The path of an item that belongs to streams: of iterators if the client blocks. -/
def streamItem (c : Call) (l : SupportLibrary) (blocking suspending : List String) : Path :=
  match c.mode with
  | .blocking => .ofNames true blocking
  | .suspending => l.stream.appendNames suspending

/-- The trait of streams with the given items. -/
def streamOf (c : Call) (l : SupportLibrary) (item : Ty) : Bound :=
  let trait := c.streamItem l ["core", "iter", "Iterator"] ["Stream"]
  let args := PathArgs.angle false [.assocType ⟨"Item"⟩ .none item] false
  .trait false false .none (.mk trait.leading
    (trait.segments.dropLast ++ (trait.segments.getLast?.map fun s => .mk s.ident args).toList))

/-- The function that maps over streams. -/
def streamMap (c : Call) (l : SupportLibrary) : Path :=
  c.streamItem l ["core", "iter", "Iterator", "map"] ["StreamExt", "map"]

def parameter (c : Call) (l : SupportLibrary) : Parameter :=
  if c.shape.inputIsStream then
    let send := Bound.trait false false .none (.ofNames true ["core", "marker", "Send"])
    ⟨⟨"requests"⟩, .implTrait [c.streamOf l c.request, send, .lifetime "static"] false⟩
  else ⟨⟨"request"⟩, c.request⟩

def output (c : Call) (l : SupportLibrary) : Ty :=
  let one := Ty.applied l.result [c.response]
  if c.shape.outputIsStream then .applied l.result [.implTrait [c.streamOf l one] false] else one

/-- A call that has been awaited if the client suspends. -/
def awaited (c : Call) (e : Expr) : Expr :=
  match c.mode with
  | .blocking => e
  | .suspending => .awaited e

/-- Writes the request, or each request as it is sent, to the wire. -/
def marshalling (c : Call) (l : SupportLibrary) : Statement :=
  let written := l.toWire.call [.reference (.variable "request")]
  if c.shape.inputIsStream then
    .bind (.ofName "wire_requests")
      ((c.streamMap l).call [.variable "requests", .lambda ⟨"request"⟩ written])
  else .bind (.ofName "wire_request") written.propagated

/-- The function of the stub that makes calls of a shape. -/
def stubFunction (s : Shape) : String :=
  sideText s.inputIsStream ++ "_" ++ sideText s.outputIsStream

def calling (c : Call) : Statement :=
  let wire := if c.shape.inputIsStream then "wire_requests" else "wire_request"
  let self := Expr.variable "self"
  let call := (self.field "stub").callMethod (stubFunction c.shape)
    [.path (.ofNames false ["Self", "SERVICE_NAME"]), c.wireName, .variable wire,
      .reference (self.field "metadata")]
  let pattern := if c.shape.outputIsStream then Pattern.ofName "call"
    else .tuple [.ofName "response", .ofName "call"] false
  .bind pattern (c.awaited call).propagated

def logging (c : Call) (l : SupportLibrary) : Statement :=
  let id := (l.trackingId c.mode).call [.reference (.variable "call")]
  .effect (l.logRequest.call [c.awaited id, c.wireName])

/-- Reads the response, or each response as it is asked for. -/
def unmarshalling (c : Call) (l : SupportLibrary) : Statement :=
  let read := Expr.applied l.fromWire [c.response]
  if c.shape.outputIsStream then
    let next := (Expr.variable "item").callMethod "and_then" [read]
    let each := Expr.lambda ⟨"item"⟩ (.block none [] [.result next])
    .result ((Path.ofNames true ["core", "result", "Result", "Ok"]).call
      [(c.streamMap l).call [.variable "call", each]])
  else .result (.call read [.variable "response"] false)

/-- The method's name as it is told to readers. -/
def shownName (c : Call) : String :=
  "\x60" ++ c.service ++ "." ++ c.method.name ++ "\x60"

def unsupportedNote (c : Call) : String :=
  " Not supported: " ++ c.shownName ++ " streams requests into a single response."

def unsupportedMessage (c : Call) : String :=
  "client-streaming method " ++ c.shownName ++ " returning a single response is not supported"

def body (c : Call) (l : SupportLibrary) : List Statement :=
  if c.shape.isSupported then
    [c.marshalling l, c.calling, c.logging l, c.unmarshalling l]
  else
    [.bind .wildcard (.variable "requests"),
      .result (.macroCall (.ofNames true ["core", "unimplemented"]) .paren
        [.literal (quoted c.unsupportedMessage)])]

/-- The function of the method. -/
def function (c : Call) (l : SupportLibrary) : Function where
  attributes :=
    docAttributes c.method.docs ++
      (if c.shape.isSupported then [] else [.doc c.unsupportedNote]) ++
      [.call (l.errorWrapper c.mode c.shape.outputIsStream) [.literal (quoted c.method.name)]]
  isAsync := c.mode == .suspending
  name := c.name
  receiver := .shared
  parameters := [c.parameter l]
  output := c.output l
  body := c.body l

end Call

end SchemaBindings.Binding
