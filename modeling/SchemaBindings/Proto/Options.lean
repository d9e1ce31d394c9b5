import SchemaBindings.Proto.Reader
import SchemaBindings.Proto.WellKnown

/-!
Settings of options. The options of a declaration are the fields of a message, and a setting gives a
value to one of them, or to a field of a message that is the value of one. Values have to fit the
fields, and no field is set twice unless it is repeated.
-/

namespace SchemaBindings.Proto

open SchemaBindings.Descriptor (Kind)

/-- The kinds of declarations that have options of their own. -/
inductive OptionOwner where
  | file | message | field | oneof | enum | enumValue | service | method | extensionRange
deriving Repr, DecidableEq

/-- The full name of the message that holds the options. -/
def OptionOwner.holder : OptionOwner → String
  | .file => "google.protobuf.FileOptions"
  | .message => "google.protobuf.MessageOptions"
  | .field => "google.protobuf.FieldOptions"
  | .oneof => "google.protobuf.OneofOptions"
  | .enum => "google.protobuf.EnumOptions"
  | .enumValue => "google.protobuf.EnumValueOptions"
  | .service => "google.protobuf.ServiceOptions"
  | .method => "google.protobuf.MethodOptions"
  | .extensionRange => "google.protobuf.ExtensionRangeOptions"

/-! ## Plain values -/

/-- Whether a value fits a kind that is written in the same way everywhere, and whether it is what
a field of the kind holds if it is not set. -/
def commonValue? (kind : Kind) (v : OptionValue) : Option Bool :=
  match kind, v with
  | .string, .text bytes => if isText bytes then some bytes.isEmpty else none
  | .bytes, .text bytes => some bytes.isEmpty
  | .float, .integer n | .double, .integer n => some (n == 0)
  | .float, .fraction isZero | .double, .fraction isZero => some isZero
  | kind, .integer n => if fitsKind kind n then some (n == 0) else none
  | _, _ => none

/-- The number of a named value of an enum, as the test whether it is the first one. -/
def enumValue? (e : Descriptor.Enum) (name : String) : Option Bool := do
  let v ← e.values.find? (·.name == name)
  return e.values.head?.any (·.number == v.number)

/-- Whether a value outside braces fits a field that is no message, and whether it is what the field
holds if it is not set. -/
def settingValue? (pool : Pool) (s : Slot) (v : OptionValue) : Option Bool :=
  match s.field.kind, v with
  | .bool, .word "true" false => some false
  | .bool, .word "false" false => some true
  | .enum, .word name false => (pool.enum? s.typeName).bind (enumValue? · name)
  | kind, v => commonValue? kind v

/-- The same for a value inside braces, where numbers may stand for words and words for numbers. -/
def innerValue? (pool : Pool) (s : Slot) (v : OptionValue) : Option Bool :=
  match s.field.kind, v with
  | .bool, .word name false =>
    if ["true", "True", "t"].contains name then some false
    else if ["false", "False", "f"].contains name then some true
    else none
  | .bool, .integer n => if n == 0 then some true else if n == 1 then some false else none
  | .float, .word name _ | .double, .word name _ =>
    if Reader.isNumberWordInside name then some false else none
  | .enum, .word name false => (pool.enum? s.typeName).bind (enumValue? · name)
  | .enum, .integer n => do
    let e ← pool.enum? s.typeName
    if fitsKind .int32 n then some (e.values.head?.any (·.number == n)) else none
  | kind, v => commonValue? kind v

/-! ## Values in braces -/

/-- What has been set: the numbers of fields, each inside the message that the one before it is. -/
abbrev SetFields := List (List Int)

/-- Where values of fields are looked up. -/
def SetFields.below (number : Int) (inner : SetFields) : SetFields :=
  inner.map (number :: ·)

/-- What a value sets that is no message. -/
def SetFields.ofPlain (s : Slot) (isUnset : Bool) : SetFields :=
  if isUnset && !s.hasPresence then [] else [[]]

/-- The message that a packed value is put into. -/
def packedMessage : String := "google.protobuf.Any"

/-- Whether a field of a message can be set inside braces after others. -/
def isFree (pool : Pool) (message : String) (s : Slot) (done : SetFields) : Bool :=
  !done.contains [s.field.number] &&
    (pool.alternatives message s).all fun f => !done.contains [f.number]

mutual

/-- What the fields in braces set in a message, after others have been set. -/
def setFields? (pool : Pool) (message : String) (done : SetFields) :
    List (FieldKey × OptionValue) → Option SetFields
  | [] => some done
  | (.packed packed, .fields entries) :: rest => do
    if message != packedMessage || (pool.message? packed).isNone then none
    let _ ← setFields? pool packed [] entries
    setFields? pool message (done ++ [[1], [2]]) rest
  | (.packed _, _) :: _ => none
  | (.field name, value) :: rest => do
    let s ← pool.fieldInside? message name
    setFields? pool message (← setField? pool message s done value) rest
  | (.extension name, value) :: rest => do
    let s ← pool.extension? message name
    setFields? pool message (← setField? pool message s done value) rest

/-- What is set when a field gets a value inside braces. -/
def setField? (pool : Pool) (message : String) (s : Slot) (done : SetFields) :
    OptionValue → Option SetFields
  | .list elements => do
    if !s.isRepeated then none
    allFit? pool s elements
    return done
  | .fields entries => do
    if !s.isMessage then none
    let inner ← setFields? pool s.typeName [] entries
    if s.isRepeated then return done
    if !isFree pool message s done then none
    return done ++ SetFields.below s.field.number ([] :: inner)
  | v => do
    if s.isMessage then none
    let isUnset ← innerValue? pool s v
    if s.isRepeated then return done
    if !isFree pool message s done then none
    return done ++ SetFields.below s.field.number (SetFields.ofPlain s isUnset)

/-- Refuses the elements of a list if one of them does not fit its field. -/
def allFit? (pool : Pool) (s : Slot) : List OptionValue → Option Unit
  | [] => some ()
  | .list _ :: _ => none
  | .fields entries :: rest => do
    if !s.isMessage then none
    let _ ← setFields? pool s.typeName [] entries
    allFit? pool s rest
  | v :: rest => do
    if s.isMessage then none
    let _ ← innerValue? pool s v
    allFit? pool s rest

end

/-! ## Settings -/

/-- The field that a part of an option's name stands for in a message. -/
def OptionPart.slot? (pool : Pool) (view : NameView) (scope message : String) (part : OptionPart) :
    Option Slot := do
  if part.isExtension then
    let (name, _) ← resolve? view (· == .extension) scope part.name
    pool.extension? message name
  else pool.field? message part.name

/-- What a value sets in the field that it is for. -/
def OptionValue.setting? (pool : Pool) (s : Slot) : OptionValue → Option SetFields
  | .fields entries =>
    if s.isMessage then (setFields? pool s.typeName [] entries).map ([] :: ·) else none
  | v =>
    if s.isMessage then none else (settingValue? pool s v).map (SetFields.ofPlain s)

/-- What has been set after one more setting. The parts of the name lead from the message that
`above` leads to. -/
def applySetting? (pool : Pool) (view : NameView) (scope : String) (value : OptionValue)
    (done : SetFields) (above : List Int) (message : String) : List OptionPart → Option SetFields
  | [] => none
  | [part] => do
    let s ← part.slot? pool view scope message
    let place := above ++ [s.field.number]
    let inner ← value.setting? pool s
    if s.isRepeated then return done
    if done.contains place then none
    return done ++ inner.map (place ++ ·)
  | part :: rest => do
    let s ← part.slot? pool view scope message
    if s.isRepeated || !s.isMessage then none
    let place := above ++ [s.field.number]
    applySetting? pool view scope value (place :: done) place s.typeName rest

/-- The options of a declaration, whose full name is their scope. -/
structure OptionBlock where
  owner : OptionOwner
  scope : String
  settings : List OptionSetting

/-- Whether the settings are possible one after the other. -/
def OptionBlock.isPossible (pool : Pool) (view : NameView) (b : OptionBlock) : Bool :=
  let message := b.owner.holder
  let pool := if (pool.message? message).isSome then pool else WellKnown.optionPool
  (b.settings.foldlM (fun done o =>
    applySetting? pool view b.scope o.value done [] message o.name) []).isSome

/-! ## The options of a file -/

/-- The options among members. -/
def optionsOf (members : List Member) : List OptionSetting :=
  members.filterMap fun
    | .option o => some o
    | _ => none

def withoutDeclarative (options : List OptionSetting) : List OptionSetting :=
  options.filter fun o => !declarative.any fun name => o.name == [⟨false, name⟩]

def FieldHead.optionBlock (scope : String) (head : FieldHead) : OptionBlock :=
  ⟨.field, qualify scope head.name, withoutDeclarative head.options⟩

def EnumSource.optionBlocks (scope : String) (e : EnumSource) : List OptionBlock :=
  ⟨.enum, qualify scope e.name, e.options⟩ ::
    e.values.map fun v => ⟨.enumValue, qualify scope v.name, v.options⟩

mutual

/-- The options of a member of a scope and of everything in it. -/
def Member.optionBlocks (scope : String) : Member → List OptionBlock
  | .field head _ | .map head _ _ => [head.optionBlock scope]
  | .group head members =>
    let inner := qualify scope head.name
    head.optionBlock scope :: ⟨.message, inner, optionsOf members⟩ :: optionBlocks inner members
  | .oneof name members options =>
    ⟨.oneof, qualify scope name, options⟩ :: optionBlocks scope members
  | .message _ name members =>
    let inner := qualify scope name
    ⟨.message, inner, optionsOf members⟩ :: optionBlocks inner members
  | .enum e => e.optionBlocks scope
  | .extend _ members => optionBlocks scope members
  | .extensions _ options => [⟨.extensionRange, scope, options⟩]
  | .reserved _ | .option _ => []

def optionBlocks (scope : String) : List Member → List OptionBlock
  | [] => []
  | m :: rest => m.optionBlocks scope ++ optionBlocks scope rest

end

def ServiceSource.optionBlocks (scope : String) (s : ServiceSource) : List OptionBlock :=
  let inner := qualify scope s.name
  ⟨.service, inner, s.options⟩ :: s.methods.map fun m => ⟨.method, qualify inner m.name, m.options⟩

def FileSource.optionBlocks (f : FileSource) : List OptionBlock :=
  let package := f.package.getD ""
  ⟨.file, package, optionsOf f.members⟩ :: Proto.optionBlocks package f.members ++
    f.services.flatMap (·.optionBlocks package)

/-- Adds a file with its options to the files that it may import. -/
def Pool.add? (pool : Pool) (path : String) (source : FileSource) : Option Pool := do
  let pool ← pool.push? path source
  let view := pool.view source
  if source.optionBlocks.all (·.isPossible pool view) then return pool else none

end SchemaBindings.Proto
