import SchemaBindings.Proto.Lexer
import SchemaBindings.Proto.Source

/-!
Reading schema sources. What the grammar of one version forbids and that of the other does not is
refused here too: labels, groups, required fields and default values.
-/

namespace SchemaBindings.Proto

/-- Takes something from the beginning of the lexemes, or refuses them. -/
abbrev Reader := StateT (List Lexeme) Option

namespace Reader

open SchemaBindings.Descriptor (Kind Label)

def peek : Reader (Option Token) := do return (← get).head?.map (·.token)

/-- The comment that documents what begins here. -/
def leading : Reader (Option String) := do return (← get).head?.bind (·.leading)

def advance : Reader Unit := modify (·.drop 1)

def markIf (c : Char) : Reader Bool := do
  if (← peek) == some (.mark c) then advance; return true else return false

def mark (c : Char) : Reader Unit := do
  if !(← markIf c) then failure

def nextIsWord (w : String) : Reader Bool := do return (← peek) == some (.word w)

def wordIf (w : String) : Reader Bool := do
  if ← nextIsWord w then advance; return true else return false

def name : Reader String := do
  match ← peek with
  | some (.word w) => advance; return w
  | _ => failure

/-- Names with dots between them. -/
def dottedName (fuel : Nat) : Reader String := do
  match fuel with
  | 0 => failure
  | fuel + 1 =>
    let first ← name
    if ← markIf '.' then return first ++ "." ++ (← dottedName fuel) else return first

def fuelHere : Reader Nat := do return (← get).length + 1

/-- A reference to a definition, which may begin with a dot. -/
def reference : Reader String := do
  let fuel ← fuelHere
  if ← markIf '.' then return "." ++ (← dottedName fuel) else dottedName fuel

/-- Texts next to each other, which count as one. -/
def texts (fuel : Nat) : Reader (List UInt8) := do
  match fuel with
  | 0 => return []
  | fuel + 1 =>
    match ← peek with
    | some (.text bytes) => advance; return bytes ++ (← texts fuel)
    | _ => return []

def text : Reader (List UInt8) := do
  match ← peek with
  | some (.text _) => texts (← fuelHere)
  | _ => failure

/-- Bytes as a text, if they are one. -/
def decode (bytes : List UInt8) : Reader String :=
  match String.fromUTF8? ⟨bytes.toArray⟩ with
  | some s => pure s
  | none => failure

def integer : Reader Nat := do
  match ← peek with
  | some (.integer n) => advance; return n
  | _ => failure

def signedInteger : Reader Int := do
  if ← markIf '-' then return -((← integer : Nat) : Int) else return ((← integer : Nat) : Int)

def maxInt32 : Int := 2147483647

/-- An integer of 32 bits with a sign. -/
def int32 : Reader Int := do
  let n ← signedInteger
  if -maxInt32 - 1 ≤ n ∧ n ≤ maxInt32 then return n else failure

/-! ## Options -/

def optionPart : Reader OptionPart := do
  if ← markIf '(' then
    let name ← reference
    mark ')'
    return ⟨true, name⟩
  else return ⟨false, ← name⟩

def optionName (fuel : Nat) : Reader (List OptionPart) := do
  match fuel with
  | 0 => failure
  | fuel + 1 =>
    let first ← optionPart
    if ← markIf '.' then return first :: (← optionName fuel) else return [first]

/-- The word of a number that has no digits, after a minus sign. -/
def isNumberWord (w : String) : Bool :=
  w == "inf" || w == "nan"

/-- A value that is no message, after its sign. -/
def scalarValue (isWord : String → Bool) (isNegative : Bool) : Reader OptionValue := do
  match ← peek with
  | some (.integer n) =>
    advance
    return .integer (if isNegative then -(n : Int) else n)
  | some (.fraction isZero) => advance; return .fraction isZero
  | some (.word w) =>
    advance
    if isNegative && !isWord w then failure
    return .word w isNegative
  | some (.text _) =>
    if isNegative then failure
    return .text (← text)
  | _ => failure

/-- A name in brackets: of an extension or, behind a domain and a slash, of a message. -/
def bracketedKey : Reader FieldKey := do
  let first ← dottedName (← fuelHere)
  let key ← if ← markIf '/' then pure (.packed (← dottedName (← fuelHere)))
    else pure (.extension first)
  mark ']'
  return key

def fieldKey : Reader FieldKey := do
  if ← markIf '[' then bracketedKey else return .field (← name)

/-- Words of numbers without digits inside braces, where their case does not matter. -/
def isNumberWordInside (w : String) : Bool :=
  ["inf", "infinity", "nan"].contains (String.ofList (w.toList.map Char.toLower))

mutual

/-- The fields of a value up to the mark that closes it. -/
def valueFields (fuel : Nat) (closing : Char) : Reader (List (FieldKey × OptionValue)) := do
  match fuel with
  | 0 => failure
  | fuel + 1 =>
    if ← markIf closing then return []
    let key ← fieldKey
    let value ← if ← markIf ':' then innerValue fuel true else innerValue fuel false
    if !(← markIf ',') then let _ ← markIf ';'
    return (key, value) :: (← valueFields fuel closing)

/-- The value of a field; without a colon in front of it, it is made of messages. -/
def innerValue (fuel : Nat) (hasColon : Bool) : Reader OptionValue := do
  match fuel with
  | 0 => failure
  | fuel + 1 =>
    if ← markIf '\x7b' then return .fields (← valueFields fuel '\x7d')
    if ← markIf '<' then return .fields (← valueFields fuel '>')
    if ← markIf '[' then
      if ← markIf ']' then return .list []
      return .list (← innerValues fuel hasColon)
    if !hasColon then failure
    scalarValue isNumberWordInside (← markIf '-')

/-- The values of a list, which holds one at least, up to its end. -/
def innerValues (fuel : Nat) (hasColon : Bool) : Reader (List OptionValue) := do
  match fuel with
  | 0 => failure
  | fuel + 1 =>
    let first ← innerValue fuel hasColon
    if ← markIf ',' then return first :: (← innerValues fuel hasColon)
    mark ']'
    return [first]

end

def optionValue : Reader OptionValue := do
  if ← markIf '\x7b' then return .fields (← valueFields (2 * (← fuelHere)) '\x7d')
  scalarValue isNumberWord (← markIf '-')

def optionSetting : Reader OptionSetting := do
  let name ← optionName (← fuelHere)
  mark '='
  return ⟨name, ← optionValue⟩

/-- An option after its keyword. -/
def optionStatement : Reader OptionSetting := do
  let o ← optionSetting
  mark ';'
  return o

def optionSettings (fuel : Nat) : Reader (List OptionSetting) := do
  match fuel with
  | 0 => failure
  | fuel + 1 =>
    let first ← optionSetting
    if ← markIf ',' then return first :: (← optionSettings fuel)
    mark ']'
    return [first]

/-- Options in brackets, if there are any. -/
def optionsIf : Reader (List OptionSetting) := do
  if ← markIf '[' then optionSettings (← fuelHere) else return []

/-! ## Ranges -/

/-- A range whose end may be left open, up to `limit`. A single number stands for itself, and
nothing belongs to it but what separates it. -/
def range (number : Reader Int) (limit : Int) : Reader NumberRange := do
  let first ← number
  if ← wordIf "to" then
    if ← wordIf "max" then return ⟨first, limit⟩ else return ⟨first, ← number⟩
  else
    let next ← peek
    if next == some (.mark ',') || next == some (.mark ';') then return ⟨first, first⟩
    else failure

def ranges (number : Reader Int) (limit : Int) (fuel : Nat) : Reader (List NumberRange) := do
  match fuel with
  | 0 => failure
  | fuel + 1 =>
    let first ← range number limit
    if ← markIf ',' then return first :: (← ranges number limit fuel) else return [first]

/-- Whether a text could be a word of a source. -/
def isWord (name : String) : Bool :=
  match name.toList with
  | first :: rest => Lexer.isWordStart first && rest.all Lexer.isWordChar
  | [] => false

def reservedNames (fuel : Nat) : Reader Unit := do
  match fuel with
  | 0 => failure
  | fuel + 1 =>
    if !isWord (← decode (← text)) then failure
    if ← markIf ',' then reservedNames fuel

def maxFieldNumber : Nat := 536870911

def fieldRangeNumber : Reader Int := do return ((← integer : Nat) : Int)

/-- Reserved names or numbers, after the keyword. -/
def reserved (number : Reader Int) (limit : Int) : Reader (List NumberRange) := do
  match ← peek with
  | some (.text _) =>
    reservedNames (← fuelHere)
    mark ';'
    return []
  | _ =>
    let rs ← ranges number limit (← fuelHere)
    mark ';'
    return rs

/-! ## Enums -/

def enumMembers (fuel : Nat) (e : EnumSource) : Reader EnumSource := do
  match fuel with
  | 0 => failure
  | fuel + 1 =>
    let comment ← leading
    if ← markIf '\x7d' then return e
    if ← markIf ';' then enumMembers fuel e
    else if ← wordIf "option" then
      let o ← optionStatement
      enumMembers fuel { e with options := e.options ++ [o] }
    else if ← wordIf "reserved" then
      let rs ← reserved int32 maxInt32
      enumMembers fuel { e with reserved := e.reserved ++ rs }
    else
      let name ← name
      mark '='
      let number ← int32
      let options ← optionsIf
      mark ';'
      enumMembers fuel { e with values := e.values ++ [⟨comment, name, number, options⟩] }

/-- An enum after its keyword. -/
def enum (comment : Option String) : Reader EnumSource := do
  let name ← name
  mark '\x7b'
  enumMembers (← fuelHere) ⟨comment, name, [], [], []⟩

/-! ## Messages -/

/-- Everything that depends on the version of a file. -/
structure Version where
  isProto3 : Bool

/-- Where a field stands. -/
inductive Place where
  | message
  | oneof
  | extend
deriving DecidableEq

def scalarKind? (name : String) : Option Kind :=
  if name == "group" || name == "message" || name == "enum" then none
  else Kind.all.find? (·.text == name)

def typeName : Reader TypeName := do
  match ← peek with
  | some (.word w) =>
    match scalarKind? w with
    | some kind => advance; return .scalar kind
    | none => return .reference (← reference)
  | _ => return .reference (← reference)

/-- The kinds that keys of a map may have. -/
def keyKinds : List Kind :=
  [.int32, .int64, .uint32, .uint64, .sint32, .sint64, .fixed32, .fixed64, .sfixed32, .sfixed64,
   .bool, .string]

def keyKind : Reader Kind := do
  match scalarKind? (← name) with
  | some kind => if keyKinds.contains kind then return kind else failure
  | none => failure

/-- A label, if there is one that the version and the place allow. -/
def label (v : Version) (place : Place) : Reader (Option Label) := do
  let found ←
    if ← wordIf "optional" then pure (some Label.optional)
    else if ← wordIf "repeated" then pure (some Label.repeated)
    else if ← wordIf "required" then pure (some Label.required)
    else pure none
  if found.isSome && place = .oneof then failure
  if found = some .required && (v.isProto3 || place = .extend) then failure
  return found

def isUppercase (name : String) : Bool :=
  name.toList.head?.any Char.isUpper

def fieldHead (comment : Option String) (label : Option Label) : Reader FieldHead := do
  let name ← name
  mark '='
  let number ← integer
  return ⟨comment, label, name, number, ← optionsIf⟩

/-- Whether an option of the name is set. -/
def sets (options : List OptionSetting) (name : String) : Bool :=
  options.any fun o => o.name == [⟨false, name⟩]

mutual

/-- Members up to the closing brace. -/
def members (v : Version) (fuel : Nat) (place : Place) : Reader (List Member) := do
  match fuel with
  | 0 => failure
  | fuel + 1 =>
    if ← markIf '\x7d' then return []
    if ← markIf ';' then members v fuel place
    else
      let first ← member v fuel place
      return first ++ (← members v fuel place)

/-- A declaration, which is left out if nothing depends on it. -/
def member (v : Version) (fuel : Nat) (place : Place) : Reader (List Member) := do
  match fuel with
  | 0 => failure
  | fuel + 1 =>
    let comment ← leading
    if place = .message then
      if ← wordIf "message" then return [← message v fuel comment]
      if ← wordIf "enum" then return [.enum (← enum comment)]
      if ← wordIf "extend" then return [← extend v fuel]
      if ← wordIf "oneof" then
        let name ← name
        mark '\x7b'
        let inner ← members v fuel .oneof
        let options := inner.filterMap fun
          | .option o => some o
          | _ => none
        let fields := inner.filter fun
          | .option _ => false
          | _ => true
        if fields.isEmpty then failure
        return [.oneof name fields options]
      if ← wordIf "extensions" then
        let rs ← ranges fieldRangeNumber maxFieldNumber (← fuelHere)
        let options ← optionsIf
        mark ';'
        return [.extensions rs options]
      if ← wordIf "reserved" then
        return [.reserved (← reserved fieldRangeNumber maxFieldNumber)]
    if place ≠ .extend then
      if ← wordIf "option" then return [.option (← optionStatement)]
    return [← field v fuel place comment]

/-- A message after its keyword. -/
def message (v : Version) (fuel : Nat) (comment : Option String) : Reader Member := do
  match fuel with
  | 0 => failure
  | fuel + 1 =>
    let name ← name
    mark '\x7b'
    return .message comment name (← members v fuel .message)

/-- Extension fields after their keyword. -/
def extend (v : Version) (fuel : Nat) : Reader Member := do
  match fuel with
  | 0 => failure
  | fuel + 1 =>
    let extendee ← reference
    mark '\x7b'
    return .extend extendee (← members v fuel .extend)

def field (v : Version) (fuel : Nat) (place : Place) (comment : Option String) :
    Reader Member := do
  match fuel with
  | 0 => failure
  | fuel + 1 =>
    let label ← label v place
    if ← wordIf "map" then
      if label.isSome || place ≠ .message then failure
      mark '<'
      let key ← keyKind
      mark ','
      let value ← typeName
      mark '>'
      let head ← fieldHead comment none
      mark ';'
      if sets head.options "default" then failure
      return .map head key value
    if !v.isProto3 && label.isNone && place ≠ .oneof then failure
    if ← nextIsWord "group" then
      if v.isProto3 then failure
      advance
      let head ← fieldHead comment label
      if !isUppercase head.name then failure
      mark '\x7b'
      return .group head (← members v fuel .message)
    let type ← typeName
    let head ← fieldHead comment label
    mark ';'
    if v.isProto3 && sets head.options "default" then failure
    return .field head type

end

/-! ## Services -/

/-- A type in parentheses, and whether it stands for a stream. -/
def methodType : Reader (Bool × String) := do
  mark '('
  let isStream ← wordIf "stream"
  let type ← reference
  mark ')'
  return (isStream, type)

/-- Options and empty statements up to the closing brace. -/
def methodOptions (fuel : Nat) : Reader (List OptionSetting) := do
  match fuel with
  | 0 => failure
  | fuel + 1 =>
    if ← markIf '\x7d' then return []
    if ← markIf ';' then methodOptions fuel
    else if ← wordIf "option" then
      let o ← optionStatement
      return o :: (← methodOptions fuel)
    else failure

/-- A method after its keyword. -/
def method (comment : Option String) : Reader MethodSource := do
  let name ← name
  let (clientStreaming, inputType) ← methodType
  if !(← wordIf "returns") then failure
  let (serverStreaming, outputType) ← methodType
  let options ← if ← markIf '\x7b' then methodOptions (← fuelHere) else do
    mark ';'
    pure []
  return ⟨comment, name, inputType, clientStreaming, outputType, serverStreaming, options⟩

def serviceMembers (fuel : Nat) (s : ServiceSource) : Reader ServiceSource := do
  match fuel with
  | 0 => failure
  | fuel + 1 =>
    let comment ← leading
    if ← markIf '\x7d' then return s
    if ← markIf ';' then serviceMembers fuel s
    else if ← wordIf "option" then
      let o ← optionStatement
      serviceMembers fuel { s with options := s.options ++ [o] }
    else if ← wordIf "rpc" then
      let m ← method comment
      serviceMembers fuel { s with methods := s.methods ++ [m] }
    else failure

/-- A service after its keyword. -/
def service (comment : Option String) : Reader ServiceSource := do
  let name ← name
  mark '\x7b'
  serviceMembers (← fuelHere) ⟨comment, name, [], []⟩

/-! ## Files -/

/-- The version at the beginning of a file. -/
def version : Reader Version := do
  if ← wordIf "syntax" then
    mark '='
    let named ← decode (← text)
    mark ';'
    if named == "proto3" then return ⟨true⟩
    else if named == "proto2" then return ⟨false⟩
    else failure
  else return ⟨false⟩

/-- The statements of a file. -/
def statements (v : Version) (fuel : Nat) (f : FileSource) : Reader FileSource := do
  match fuel with
  | 0 => failure
  | fuel + 1 =>
    let comment ← leading
    match ← peek with
    | none => return f
    | some (.mark ';') => advance; statements v fuel f
    | some (.word "import") =>
      advance
      let isPublic ← wordIf "public"
      if !isPublic then let _ ← wordIf "weak"
      let path ← decode (← text)
      mark ';'
      statements v fuel { f with imports := f.imports ++ [⟨path, isPublic⟩] }
    | some (.word "package") =>
      advance
      let package ← dottedName (← fuelHere)
      mark ';'
      if f.package.isSome then failure
      statements v fuel { f with package := some package }
    | some (.word "option") =>
      advance
      let o ← optionStatement
      statements v fuel { f with members := f.members ++ [.option o] }
    | some (.word "service") =>
      advance
      let s ← service comment
      statements v fuel { f with services := f.services ++ [s] }
    | some (.word "message") =>
      advance
      let m ← message v (fuel + 1) comment
      statements v fuel { f with members := f.members ++ [m] }
    | some (.word "enum") =>
      advance
      let e ← enum comment
      statements v fuel { f with members := f.members ++ [.enum e] }
    | some (.word "extend") =>
      advance
      let m ← extend v (fuel + 1)
      statements v fuel { f with members := f.members ++ [m] }
    | some _ => failure

end Reader

/-- The file that a source text holds. -/
def FileSource.ofText? (text : String) : Option FileSource := do
  let lexemes ← Lexer.ofText? text
  let file : Reader FileSource := do
    let v ← Reader.version
    Reader.statements v (4 * lexemes.length + 4) { isProto3 := v.isProto3 }
  let (f, _) ← file.run lexemes
  return f

end SchemaBindings.Proto
