import SchemaBindings.Proto.Source

/-!
Declarations without comments and options, for files that are known beforehand.
-/

namespace SchemaBindings.Proto.WellKnown

open SchemaBindings.Descriptor (Kind Label)

def scalar (kind : Kind) : TypeName := .scalar kind

def ref (name : String) : TypeName := .reference name

def fieldWith (label : Option Label) (name : String) (number : Nat) (type : TypeName) : Member :=
  .field ⟨none, label, name, number, []⟩ type

/-- A field without a label. -/
def plain (name : String) (number : Nat) (type : TypeName) : Member :=
  fieldWith none name number type

def optional (name : String) (number : Nat) (type : TypeName) : Member :=
  fieldWith (some .optional) name number type

def repeated (name : String) (number : Nat) (type : TypeName) : Member :=
  fieldWith (some .repeated) name number type

def required (name : String) (number : Nat) (type : TypeName) : Member :=
  fieldWith (some .required) name number type

def message (name : String) (members : List Member) : Member :=
  .message none name members

def enum (name : String) (values : List (String × Int)) : Member :=
  .enum ⟨none, name, values.map fun (name, number) => ⟨none, name, number, []⟩, [], []⟩

/-- An enum whose values are numbered from a number on. -/
def enumFrom (name : String) (first : Int) (values : List String) : Member :=
  enum name (values.mapIdx fun i value => (value, first + i))

/-- The numbers that a message leaves to extensions. -/
def extensions (ranges : List (Int × Int)) : Member :=
  .extensions (ranges.map fun (first, last) => ⟨first, last⟩) []

def imports (paths : List String) : List ImportSource :=
  paths.map fun path => ⟨path, false⟩

/-- A file of the newer version in the usual package. -/
def standard (paths : List String) (members : List Member) : FileSource :=
  { isProto3 := true, package := some "google.protobuf", imports := imports paths, members }

end SchemaBindings.Proto.WellKnown
