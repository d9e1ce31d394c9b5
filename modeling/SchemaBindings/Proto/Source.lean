import SchemaBindings.Descriptor

/-!
Schema sources as they are written: the declarations of a file in order, with references that are
not resolved yet and with the comments in front of them.
-/

namespace SchemaBindings.Proto

open SchemaBindings.Descriptor (Kind Label)

/-- A part of an option's name; a part in parentheses names an extension. -/
structure OptionPart where
  isExtension : Bool
  name : String
deriving Repr, DecidableEq, Inhabited

/-- What a field of a value in braces is named by. -/
inductive FieldKey where
  | field (name : String)
  /-- The full name of an extension. -/
  | extension (name : String)
  /-- The full name of the message that a packed value holds. -/
  | packed (message : String)
deriving Repr, DecidableEq, Inhabited

inductive OptionValue where
  | word (name : String) (isNegative : Bool)
  | integer (n : Int)
  /-- A number that is no integer; of its value only that it is zero matters. -/
  | fraction (isZero : Bool)
  | text (bytes : List UInt8)
  /-- Fields in braces. -/
  | fields (entries : List (FieldKey × OptionValue))
  /-- Values in brackets, which stand inside braces only. -/
  | list (elements : List OptionValue)
deriving Repr, Inhabited

structure OptionSetting where
  name : List OptionPart
  value : OptionValue
deriving Repr, Inhabited

/-- A type as it is written. -/
inductive TypeName where
  | scalar (kind : Kind)
  | reference (name : String)
deriving Repr, DecidableEq, Inhabited

/-- Numbers from `first` through `last`. -/
structure NumberRange where
  first : Int
  last : Int
deriving Repr, DecidableEq, Inhabited

/-- What every field has, whatever its type. -/
structure FieldHead where
  leading : Option String
  label : Option Label
  name : String
  number : Nat
  options : List OptionSetting
deriving Repr, Inhabited

structure EnumValueSource where
  leading : Option String
  name : String
  number : Int
  options : List OptionSetting
deriving Repr, Inhabited

structure EnumSource where
  leading : Option String
  name : String
  values : List EnumValueSource
  reserved : List NumberRange
  options : List OptionSetting
deriving Repr, Inhabited

/-- A declaration inside a message. -/
inductive Member where
  | field (head : FieldHead) (type : TypeName)
  | map (head : FieldHead) (key : Kind) (value : TypeName)
  /-- A field together with the message that is its type. -/
  | group (head : FieldHead) (members : List Member)
  | oneof (name : String) (members : List Member) (options : List OptionSetting)
  | message (leading : Option String) (name : String) (members : List Member)
  | enum (e : EnumSource)
  | extend (extendee : String) (members : List Member)
  | extensions (ranges : List NumberRange) (options : List OptionSetting)
  | reserved (ranges : List NumberRange)
  | option (o : OptionSetting)
deriving Repr, Inhabited

structure MethodSource where
  leading : Option String
  name : String
  inputType : String
  clientStreaming : Bool
  outputType : String
  serverStreaming : Bool
  options : List OptionSetting
deriving Repr, Inhabited

structure ServiceSource where
  leading : Option String
  name : String
  methods : List MethodSource
  options : List OptionSetting
deriving Repr, Inhabited

structure ImportSource where
  path : String
  isPublic : Bool
deriving Repr, Inhabited

/-- A file; its members are messages, enums, extensions and options. -/
structure FileSource where
  isProto3 : Bool := false
  package : Option String := none
  imports : List ImportSource := []
  members : List Member := []
  services : List ServiceSource := []
deriving Repr, Inhabited

end SchemaBindings.Proto
