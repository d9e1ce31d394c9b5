import SchemaBindings.Proto.Check

/-!
From sources to descriptors: references are resolved, maps and groups get their messages, and the
comments are put at the paths of what they document.
-/

namespace SchemaBindings.Proto

open SchemaBindings.Descriptor (Kind Label Location childPath)

/-- Where members are declared: their path, and the numbers of the parts that their fields, messages
and enums belong to there. -/
structure Site where
  scope : String
  path : List Int
  fieldPart : Int
  messagePart : Int
  enumPart : Int
  /-- The place of the group of alternatives that fields belong to. -/
  oneof : Option Nat := none

/-- A field of a message that is declared somewhere else. -/
structure Extension where
  /-- The full name of the message. -/
  extendee : String
  field : Descriptor.Field
deriving Inhabited

/-- The descriptors of members in order, their extensions by full names, and their comments. -/
structure Lowered where
  fields : List Descriptor.Field := []
  messages : List Descriptor.Message := []
  enums : List Descriptor.Enum := []
  oneofs : List String := []
  extensions : List (String × Extension) := []
  locations : List Location := []
deriving Inhabited

def comments (path : List Int) (leading : Option String) : List Location :=
  leading.toList.map fun text => ⟨path, text⟩

/-- The kind and the full name that a type stands for. -/
def TypeName.lower? (c : Checked) (scope : String) : TypeName → Option (Kind × String)
  | .scalar kind => some (kind, "")
  | .reference name =>
    match resolve? c.view (·.isType) scope name with
    | some (fullName, .message _) => some (.message, "." ++ fullName)
    | some (fullName, .enum) => some (.enum, "." ++ fullName)
    | _ => none

def Lowered.addField (l : Lowered) (c : Checked) (site : Site) (head : FieldHead) (name : String)
    (label : Label) (kind : Kind) (typeName : String) (leading : Option String) : Lowered :=
  let path := childPath site.path site.fieldPart l.fields.length
  { l with
    fields := l.fields ++ [{
      name, number := head.number, label, kind, typeName
      oneofIndex := site.oneof.map fun i => (i : Int)
      isOptionalAlone := c.isProto3 && head.label == some .optional }]
    locations := l.locations ++ comments path leading }

/-- Adds a message whose members have been lowered. -/
def Lowered.addMessage (l : Lowered) (site : Site) (name : String) (leading : Option String)
    (inner : Lowered) : Lowered :=
  let path := childPath site.path site.messagePart l.messages.length
  { l with
    messages := l.messages ++ [⟨name, inner.fields, inner.messages, inner.enums, inner.oneofs⟩]
    extensions := l.extensions ++ inner.extensions
    locations := l.locations ++ comments path leading ++ inner.locations }

def Lowered.addEnum (l : Lowered) (site : Site) (e : EnumSource) : Lowered :=
  let path := childPath site.path site.enumPart l.enums.length
  { l with
    enums := l.enums ++ [⟨e.name, e.values.map fun v => ⟨v.name, v.number⟩⟩]
    locations := l.locations ++ comments path e.leading ++
      (e.values.mapIdx fun i v => comments (childPath path 2 i) v.leading).flatten }

/-- The message of the entries of a map. -/
def entryMessage (name : String) (key : Kind) (value : Kind × String) : Lowered → Lowered
  | l => { l with
      messages := l.messages ++ [{
        name
        fields := [{ name := "key", number := 1, kind := key },
          { name := "value", number := 2, kind := value.1, typeName := value.2 }] }] }

/-- The site inside a message that is the next one at a site. -/
def Site.inner (site : Site) (l : Lowered) (name : String) : Site :=
  { scope := qualify site.scope name
    path := childPath site.path site.messagePart l.messages.length
    fieldPart := 2, messagePart := 3, enumPart := 4 }

mutual

/-- Adds what a member is lowered to. -/
def Member.lower? (c : Checked) (site : Site) (l : Lowered) : Member → Option Lowered
  | .field head type => do
    let (kind, typeName) ← type.lower? c site.scope
    return l.addField c site head head.name (head.label.getD .optional) kind typeName head.leading
  | .map head key value => do
    let value ← value.lower? c site.scope
    let name := entryName head.name
    let typeName := "." ++ qualify site.scope name
    return entryMessage name key value
      (l.addField c site head head.name .repeated .message typeName head.leading)
  | .group head members => do
    let inner ← lowerAll? c (site.inner l head.name) {} members
    let typeName := "." ++ qualify site.scope head.name
    return (l.addField c site head (groupFieldName head.name) (head.label.getD .optional) .group
      typeName none).addMessage site head.name head.leading inner
  | .oneof name members _ =>
    lowerAll? c { site with oneof := some l.oneofs.length } { l with oneofs := l.oneofs ++ [name] }
      members
  | .message leading name members => do
    let inner ← lowerAll? c (site.inner l name) {} members
    return l.addMessage site name leading inner
  | .enum e => some (l.addEnum site e)
  | .extend reference members => do
    if members.isEmpty then return l
    let (extendee, _) ← resolve? c.view (·.isMessage) site.scope reference
    let part := if site.path.isEmpty then 7 else 6
    let extended ← lowerAll? c { site with fieldPart := part } { l with fields := [] } members
    return { extended with
      fields := l.fields
      extensions := extended.extensions ++
        extended.fields.map fun f => (qualify site.scope f.name, ⟨extendee, f⟩) }
  | .extensions _ _ | .reserved _ | .option _ => some l

def lowerAll? (c : Checked) (site : Site) (l : Lowered) : List Member → Option Lowered
  | [] => some l
  | m :: rest => do lowerAll? c site (← m.lower? c site l) rest

end

def MethodSource.lower? (c : Checked) (scope : String) (m : MethodSource) :
    Option Descriptor.Method := do
  let (input, _) ← resolve? c.view (·.isMessage) scope m.inputType
  let (output, _) ← resolve? c.view (·.isMessage) scope m.outputType
  return ⟨m.name, "." ++ input, "." ++ output, m.clientStreaming, m.serverStreaming⟩

def ServiceSource.lower? (c : Checked) (package : String) (s : ServiceSource) :
    Option Descriptor.Service := do
  return ⟨s.name, ← s.methods.mapM (·.lower? c (qualify package s.name))⟩

def ServiceSource.locations (place : Nat) (s : ServiceSource) : List Location :=
  let path := childPath [] 6 place
  comments path s.leading ++
    (s.methods.mapIdx fun i m => comments (childPath path 2 i) m.leading).flatten

/-- The descriptor of a sound file, and its extensions by full names. -/
def FileSource.lower? (view : NameView) (f : FileSource) :
    Option (Descriptor.File × List (String × Extension)) := do
  if !f.isSound view then none
  let c : Checked := ⟨f.isProto3, view⟩
  let package := f.package.getD ""
  let site : Site := ⟨package, [], 0, 4, 5, none⟩
  let l ← lowerAll? c site {} f.members
  return ({
    package, syntaxName := if f.isProto3 then "proto3" else "", messages := l.messages
    enums := l.enums, services := ← f.services.mapM (·.lower? c package)
    locations := l.locations ++ (f.services.mapIdx fun i s => s.locations i).flatten },
    l.extensions)

end SchemaBindings.Proto
