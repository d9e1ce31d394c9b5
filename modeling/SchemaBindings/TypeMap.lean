import SchemaBindings.Code.Tree.Reader
import SchemaBindings.Lookup
import SchemaBindings.Settings

/-!
Which type stands for a scalar kind, and which for a definition that comes from elsewhere.
-/

namespace SchemaBindings

open Code

/-- Types by scalar kind and by the full name of a definition, both sorted. -/
structure TypeMap where
  scalars : List (String × Ty)
  externTypes : List (String × Ty)

namespace TypeMap

def primitive (name : String) : Ty :=
  .path (.ofNames false [name])

/-- The scalar kinds that have a type without any setting. -/
def defaultScalars : List (String × Ty) :=
  [("bool", primitive "bool"),
   ("bytes", .global ["std", "vec", "Vec"] (primitive "u8")),
   ("double", primitive "f64"),
   ("fixed32", primitive "u32"),
   ("fixed64", primitive "u64"),
   ("float", primitive "f32"),
   ("int32", primitive "i32"),
   ("int64", primitive "i64"),
   ("sfixed32", primitive "i32"),
   ("sfixed64", primitive "i64"),
   ("sint32", primitive "i32"),
   ("sint64", primitive "i64"),
   ("string", .path (.ofNames true ["std", "string", "String"])),
   ("uint32", primitive "u32"),
   ("uint64", primitive "u64")]

def defaultExternTypes : List (String × Ty) :=
  [("google.protobuf.Duration", .path (.ofNames true ["std", "time", "Duration"])),
   ("google.protobuf.Empty", .tuple [] false),
   ("google.protobuf.Timestamp", .path (.ofNames true ["std", "time", "SystemTime"]))]

/-- Adds the entries of a settings table, the first unreadable type of which is refused. -/
def extend (tableName : String) (table : List (String × Ty)) (entries : List (String × String)) :
    Except Failure (List (String × Ty)) :=
  entries.foldlM (fun table (key, text) => do
    let type ← Settings.readText (tableName ++ "." ++ key) Ty.read? text
    return insertByName key type table) table

/-- The default types with those of the settings in their place or beside them. -/
def ofTables (scalars externTypes : List (String × String)) : Except Failure TypeMap := do
  return {
    scalars := ← extend "scalars" defaultScalars scalars
    externTypes := ← extend "extern_types" defaultExternTypes externTypes }

def ofSettings (s : Settings) : Except Failure TypeMap :=
  ofTables s.scalars s.externTypes

def scalar? (m : TypeMap) (kind : String) : Option Ty :=
  m.scalars.lookup kind

def extern? (m : TypeMap) (fullName : String) : Option Ty :=
  m.externTypes.lookup fullName

end TypeMap

end SchemaBindings
