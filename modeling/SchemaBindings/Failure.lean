/-!
Why a run can fail, and the wording of each cause.
-/

namespace SchemaBindings

/-- The first thing that stopped a run. -/
inductive Failure where
  /-- A field's scalar kind has no registered type. -/
  | unknownScalar (message field kind : String)
  /-- A method streams its requests into one response while such methods are refused. -/
  | unsupportedMethod (service method : String)
  | nameCollision (scope name : String)
  | cyclicImports (modules : List String)
  | unresolvedType (message field typeName : String)
  | emptyEnum (fullName : String)
  | unregistered (fullName : String)
  /-- The generated code does not follow the grammar of its language. -/
  | malformedCode
  /-- A name that has to become an identifier, or a path that has to be imported from, cannot. -/
  | unusableName
  /-- The generated code holds something that is not known well enough to be laid out. -/
  | unprintable
  | badSetting (key value : String)
  | emptyAsyncPrefix
  /-- The settings are not well-formed or hold something that is no setting. -/
  | badSettings
  | unreadable (path : String)
  | unwritable (path : String)
  /-- The schema sources do not compile. -/
  | notCompiled
  | missingSchema (path : String)
deriving DecidableEq, Repr

/-- What a failure says; the reasons that a reader of names, types or files gives are left out. -/
def Failure.message : Failure → String
  | .unknownScalar message field kind =>
    "Unknown scalar type '" ++ kind ++ "' for field '" ++ message ++ "." ++ field ++ "'"
  | .unsupportedMethod service method =>
    "Method '" ++ service ++ "." ++ method ++
      "' streams requests into a single response, which is not supported"
  | .nameCollision scope name =>
    "Name collision in '" ++ scope ++ "': '" ++ name ++ "' is already defined"
  | .cyclicImports modules =>
    "Cyclic imports could not be resolved between modules: " ++ ", ".intercalate modules
  | .unresolvedType message field typeName =>
    "Unresolved type '" ++ typeName ++ "' referenced by '" ++ message ++ "." ++ field ++ "'"
  | .emptyEnum fullName => "Code generation failed: enum '" ++ fullName ++ "' has no values"
  | .unregistered fullName =>
    "Code generation failed: '" ++ fullName ++ "' is not in the symbol table"
  | .malformedCode => "Code generation failed: Generated code is invalid"
  | .unusableName => "A name cannot be used as an identifier"
  | .unprintable => "A type cannot be laid out"
  | .badSetting key value => "Invalid configuration: '" ++ key ++ "' = \"" ++ value ++ "\""
  | .emptyAsyncPrefix => "Invalid configuration: 'async_prefix' must not be empty"
  | .badSettings => "Invalid configuration"
  | .unreadable path => path
  | .unwritable path => path
  | .notCompiled => "The schema files do not compile"
  | .missingSchema path => "Schema file '" ++ path ++ "' was not produced by the compiler"

end SchemaBindings
