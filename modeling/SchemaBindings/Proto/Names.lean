import SchemaBindings.Proto.Source
import SchemaBindings.Schema

/-!
The names that a source defines, and the resolution of references. A simple reference is looked for
from the innermost scope outwards. Of any other reference it is the first part, among all names that
are known, and where it is found the rest has to follow.
-/

namespace SchemaBindings.Proto

/-- What a full name stands for. -/
inductive Definition where
  | package
  /-- A message with the numbers that extensions of it may have. -/
  | message (extensions : List NumberRange)
  | enum
  | enumValue (enum : String)
  | extension
  | service
  | other
deriving Repr, DecidableEq, Inhabited

def Definition.isMessage : Definition → Bool
  | .message _ => true
  | _ => false

def Definition.isType : Definition → Bool
  | .message _ | .enum => true
  | _ => false

/-- Whether names can be defined inside it. -/
def Definition.isScope : Definition → Bool
  | .message _ | .enum | .package | .service => true
  | _ => false

/-- The name of the message that stands for the entries of a map. -/
def entryName (field : String) : String :=
  String.ofList (go true field.toList ++ "Entry".toList)
where
  go (capitalize : Bool) : List Char → List Char
    | [] => []
    | c :: rest =>
      if c = '_' then go true rest
      else if capitalize then c.toUpper :: go false rest
      else c :: go false rest

/-- The field name that belongs to the message of a group. -/
def groupFieldName (message : String) : String :=
  String.ofList (message.toList.map Char.toLower)

abbrev Definitions := List (String × Definition)

def enumDefinitions (scope : String) (e : EnumSource) : Definitions :=
  let fullName := qualify scope e.name
  (fullName, .enum) :: e.values.map fun v => (qualify scope v.name, .enumValue fullName)

/-- The numbers that the members of a message leave to extensions. -/
def extensionRanges (members : List Member) : List NumberRange :=
  members.flatMap fun
    | .extensions ranges _ => ranges
    | _ => []

/-- The group of alternatives that is made for a field alone, to say that it may be absent. -/
def loneOneofName (field : String) : String :=
  if field.startsWith "_" then "X" ++ field else "_" ++ field

/-- What the definitions of a member depend on beside the scope. -/
structure Surroundings where
  isProto3 : Bool
  /-- What fields are. -/
  field : Definition := .other

/-- The definitions of a field in a scope, where a message's own field may be one that is made
optional. -/
def FieldHead.definitions (s : Surroundings) (scope : String) (head : FieldHead) : Definitions :=
  let own := (qualify scope head.name, s.field)
  if s.isProto3 && head.label == some .optional && s.field != .extension then
    [own, (qualify scope (loneOneofName head.name), .other)]
  else [own]

mutual

/-- The definitions of a member in a scope. -/
def Member.definitions (s : Surroundings) (scope : String) : Member → Definitions
  | .field head _ => head.definitions s scope
  | .map head _ _ =>
    let entry := qualify scope (entryName head.name)
    [(qualify scope head.name, s.field), (entry, .message []), (entry ++ ".key", .other),
      (entry ++ ".value", .other)]
  | .group head members =>
    let fullName := qualify scope head.name
    (fullName, .message (extensionRanges members)) ::
      (qualify scope (groupFieldName head.name), s.field) ::
      memberDefinitions { s with field := .other } fullName members
  | .oneof name members _ => (qualify scope name, .other) :: memberDefinitions s scope members
  | .message _ name members =>
    let fullName := qualify scope name
    (fullName, .message (extensionRanges members)) ::
      memberDefinitions { s with field := .other } fullName members
  | .enum e => enumDefinitions scope e
  | .extend _ members => memberDefinitions { s with field := .extension } scope members
  | .extensions _ _ | .reserved _ | .option _ => []

def memberDefinitions (s : Surroundings) (scope : String) : List Member → Definitions
  | [] => []
  | m :: rest => m.definitions s scope ++ memberDefinitions s scope rest

end

def ServiceSource.definitions (scope : String) (s : ServiceSource) : Definitions :=
  let fullName := qualify scope s.name
  (fullName, .service) :: s.methods.map fun m => (qualify fullName m.name, .other)

/-- The scopes around a full name, itself first and the scope of everything last. -/
def enclosingScopes (fullName : String) : List String :=
  if fullName.isEmpty then [""]
  else
    let parts := fullName.splitOn "."
    (List.range (parts.length + 1)).map fun n => ".".intercalate (parts.take (parts.length - n))

/-- A package and the packages around it. -/
def packageDefinitions (package : String) : Definitions :=
  (enclosingScopes package).filterMap fun p => if p.isEmpty then none else some (p, .package)

def FileSource.definitions (f : FileSource) : Definitions :=
  let package := f.package.getD ""
  packageDefinitions package ++ memberDefinitions { isProto3 := f.isProto3 } package f.members ++
    f.services.flatMap (·.definitions package)

/-- Whether two definitions of a name can be there together; several files may be in one package. -/
def Definition.sharesName (d d' : Definition) : Bool :=
  d == .package && d' == .package

/-- Whether every name is defined once, by these definitions or by those there are already. -/
def areDistinct (before : Definitions) : Definitions → Bool
  | [] => true
  | (name, d) :: rest =>
    before.all (fun (other, d') => name != other || d.sharesName d') &&
      rest.all (fun (other, d') => name != other || d.sharesName d') && areDistinct before rest

/-- What references are resolved by. -/
structure NameView where
  /-- All names there are. -/
  known? : String → Option Definition
  /-- The names that may be referred to. -/
  visible? : String → Option Definition

/-- The definition that a reference from inside a scope stands for, if it is a wanted one. -/
def resolve? (view : NameView) (wanted : Definition → Bool) (scope : String) (reference : String) :
    Option (String × Definition) :=
  let find (fullName : String) : Option (String × Definition) :=
    match view.visible? fullName with
    | some d => if wanted d then some (fullName, d) else none
    | none => none
  match reference.toList with
  | '.' :: fullName => find (String.ofList fullName)
  | _ =>
    match reference.splitOn "." with
    | [] => none
    | [name] => (enclosingScopes scope).findSome? fun s => find (qualify s name)
    | first :: _ =>
      ((enclosingScopes scope).find? fun s =>
        (view.known? (qualify s first)).any (·.isScope)).bind fun s => find (qualify s reference)

end SchemaBindings.Proto
