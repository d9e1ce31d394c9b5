import SchemaBindings.Proto.Names

/-!
The rules that a source has to follow beyond its grammar and beside its options: numbers are valid,
distinct and not reserved, fields keep apart in JSON, and enums have a value to begin with.
-/

namespace SchemaBindings.Proto

open SchemaBindings.Descriptor (Kind Label)

/-- What the rules for a file look at. -/
structure Checked where
  isProto3 : Bool
  view : NameView

def isText (bytes : List UInt8) : Bool :=
  (String.fromUTF8? ⟨bytes.toArray⟩).isSome

/-- The value of an option with a plain name. -/
def setting? (options : List OptionSetting) (name : String) : Option OptionValue :=
  (options.find? fun o => o.name == [⟨false, name⟩]).map (·.value)

/-! ## Numbers -/

def maxNumber : Nat := 536870911

/-- Whether a field can have the number; some numbers in the middle belong to the format. -/
def isFieldNumber (n : Nat) : Bool :=
  1 ≤ n && n ≤ maxNumber && !(19000 ≤ n && n ≤ 19999)

def NumberRange.contains (r : NumberRange) (n : Int) : Bool :=
  r.first ≤ n && n ≤ r.last

/-- Whether a range is one of field numbers. -/
def NumberRange.isOfFields (r : NumberRange) : Bool :=
  1 ≤ r.first && r.first ≤ r.last && r.last ≤ maxNumber

/-! ## Fields -/

/-- The fields of a message, those in groups of alternatives included. -/
def fieldHeads : List Member → List FieldHead
  | [] => []
  | .field head _ :: rest | .map head _ _ :: rest | .group head _ :: rest => head :: fieldHeads rest
  | .oneof _ members _ :: rest => inOneof members ++ fieldHeads rest
  | _ :: rest => fieldHeads rest
where
  inOneof : List Member → List FieldHead
    | [] => []
    | .field head _ :: rest | .group head _ :: rest => head :: inOneof rest
    | _ :: rest => inOneof rest

def reservedRanges (members : List Member) : List NumberRange :=
  members.flatMap fun
    | .reserved ranges => ranges
    | _ => []

/-- Whether the numbers of a message are valid and nothing uses a number twice. -/
def areNumbersSound (members : List Member) : Bool :=
  let numbers := (fieldHeads members).map (·.number)
  let ranges := reservedRanges members ++ extensionRanges members
  numbers.all isFieldNumber && numbers.eraseDups.length == numbers.length &&
    ranges.all NumberRange.isOfFields &&
    numbers.all fun n => !ranges.any (·.contains n)

/-- The name of a field in JSON if nothing else is said. -/
def defaultJsonName (name : String) : String :=
  String.ofList (go false name.toList)
where
  go (capitalize : Bool) : List Char → List Char
    | [] => []
    | c :: rest =>
      if c = '_' then go true rest
      else if capitalize then c.toUpper :: go false rest
      else c :: go false rest

def jsonName (head : FieldHead) : String :=
  match setting? head.options "json_name" with
  | some (.text bytes) => (String.fromUTF8? ⟨bytes.toArray⟩).getD ""
  | _ => defaultJsonName head.name

/-- A name without its underscores and its case. -/
def flattened (name : String) : List Char :=
  (name.toList.filter (· != '_')).map Char.toLower

def areJsonNamesApart (isProto3 : Bool) (members : List Member) : Bool :=
  let heads := fieldHeads members
  let json := heads.map jsonName
  let flat := heads.map fun h => flattened h.name
  json.eraseDups.length == json.length &&
    (!isProto3 || flat.eraseDups.length == flat.length)

/-- Whether an integer is within the bounds of its kind. -/
def fitsKind (kind : Kind) (n : Int) : Bool :=
  match kind with
  | .int32 | .sint32 | .sfixed32 => -2147483648 ≤ n && n ≤ 2147483647
  | .uint32 | .fixed32 => 0 ≤ n && n ≤ 4294967295
  | .int64 | .sint64 | .sfixed64 => -9223372036854775808 ≤ n && n ≤ 9223372036854775807
  | .uint64 | .fixed64 => 0 ≤ n && n ≤ 18446744073709551615
  | _ => false

/-- Whether a field of a scalar kind can have the value by default. -/
def isScalarDefault (kind : Kind) (v : OptionValue) : Bool :=
  match kind, v with
  | .float, .integer _ | .float, .fraction _ | .double, .integer _ | .double, .fraction _ => true
  | .float, .word name _ | .double, .word name _ => name == "inf" || name == "nan"
  | .bool, .word name isNegative => !isNegative && (name == "true" || name == "false")
  | .string, .text bytes => isText bytes
  | .bytes, .text _ => true
  | kind, .integer n => fitsKind kind n
  | _, _ => false

/-- Whether a field of the type can have the value by default. -/
def isDefault (c : Checked) (scope : String) (type : TypeName) (v : OptionValue) : Bool :=
  match type, v with
  | .scalar kind, v => isScalarDefault kind v
  | .reference name, .word value false =>
    match resolve? c.view (·.isType) scope name with
    | some (fullName, .enum) =>
      let parent := ((enclosingScopes fullName).drop 1).head?.getD ""
      c.view.visible? (qualify parent value) == some (.enumValue fullName)
    | _ => false
  | .reference _, _ => false

/-- The options that are part of a field's declaration. -/
def declarative : List String := ["default", "json_name"]

/-- Whether the options that are part of a field's declaration are possible; only a field of a type
of its own may have a default. -/
def isDeclarationSound (c : Checked) (scope : String) (type : Option TypeName)
    (head : FieldHead) : Bool :=
  let json := match setting? head.options "json_name" with
    | some (.text bytes) => isText bytes
    | some _ => false
    | none => true
  let default := match setting? head.options "default", type with
    | some v, some type => head.label != some .repeated && isDefault c scope type v
    | some _, none => false
    | none, _ => true
  let named := declarative.all fun name =>
    (head.options.filter fun o => o.name == [⟨false, name⟩]).length ≤ 1
  json && default && named

/-! ## Enums -/

def areEnumNumbersSound (isProto3 : Bool) (e : EnumSource) : Bool :=
  let numbers := e.values.map (·.number)
  let hasAlias := match setting? e.options "allow_alias" with
    | some (.word name _) => name == "true"
    | _ => false
  !numbers.isEmpty && (!isProto3 || numbers.head? == some 0) &&
    (hasAlias || numbers.eraseDups.length == numbers.length) &&
    e.reserved.all (fun r => r.first ≤ r.last) &&
    numbers.all fun n => !e.reserved.any (·.contains n)

/-! ## Messages and files -/

/-- Whether extension fields have numbers that their message leaves to extensions. Where there are
no fields, there need be no message. -/
def areExtensionNumbersSound (c : Checked) (scope extendee : String) (members : List Member) :
    Bool :=
  members.isEmpty || match resolve? c.view (·.isMessage) scope extendee with
    | some (_, .message ranges) =>
      (fieldHeads members).all fun h => ranges.any (·.contains h.number)
    | _ => false

/-- Whether the members are those of a sound message. -/
def isMessageSound (c : Checked) (members : List Member) : Bool :=
  areNumbersSound members && areJsonNamesApart c.isProto3 members

mutual

/-- Whether a member of a scope follows the rules. -/
def Member.isSound (c : Checked) (scope : String) : Member → Bool
  | .field head type => isDeclarationSound c scope (some type) head
  | .map head _ _ => isDeclarationSound c scope none head
  | .group head members =>
    isDeclarationSound c scope none head && isMessageSound c members &&
      areSound c (qualify scope head.name) members
  | .oneof _ members _ => areSound c scope members
  | .message _ name members => isMessageSound c members && areSound c (qualify scope name) members
  | .enum e => areEnumNumbersSound c.isProto3 e
  | .extend extendee members =>
    areExtensionNumbersSound c scope extendee members && areSound c scope members
  | .extensions _ _ | .reserved _ | .option _ => true

def areSound (c : Checked) (scope : String) : List Member → Bool
  | [] => true
  | m :: rest => m.isSound c scope && areSound c scope rest

end

def FileSource.isSound (view : NameView) (f : FileSource) : Bool :=
  areSound ⟨f.isProto3, view⟩ (f.package.getD "") f.members

end SchemaBindings.Proto
