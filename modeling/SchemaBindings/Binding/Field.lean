import SchemaBindings.Binding.Method
import SchemaBindings.Binding.Reference

/-!
The field of a structure that stands for a field of a message. Its attribute holds the wire number,
so that nothing of the schema is lost; a message that would hold itself is put into a box.
-/

namespace SchemaBindings.Binding

open Code

/-- Whether the type of a field has to be boxed. -/
def needsBox (c : Context) (owner fullName : String) (cardinality : Cardinality) : Bool :=
  cardinality != .repeated && (c.symbols.get? fullName).any (·.kind == .message) &&
    c.symbols.isRecursive owner fullName

/-- The type of one element of a field. -/
def elementType (c : Context) (owner : String) (depth : Nat) (f : SchemaBindings.Field) :
    Binder Ty := do
  match f.type with
  | .scalar kind =>
    match c.types.scalar? kind with
    | some t => return t
    | none => throw (.unknownScalar owner f.name kind)
  | .named fullName =>
    match ← reference? c fullName depth with
    | none => throw (.unresolvedType owner f.name fullName)
    | some t =>
      if needsBox c owner fullName f.cardinality then return .global ["std", "boxed", "Box"] t
      else return t

def withCardinality (element : Ty) : Cardinality → Ty
  | .singular => element
  | .optional => .global ["core", "option", "Option"] element
  | .repeated => .global ["std", "vec", "Vec"] element

/-- The marks behind the number in the attribute of a field. -/
def fieldMarks (f : SchemaBindings.Field) : List AttributeArg :=
  match f.cardinality, f.oneof with
  | .optional, some group =>
    [.path (.ofNames false ["optional"]), .setting "oneof" (quoted group)]
  | .optional, none => [.path (.ofNames false ["optional"])]
  | _, _ => []

def fieldAttribute (c : Context) (f : SchemaBindings.Field) : Attribute :=
  .call (.mk false [.mk c.library.fieldAttribute .none])
    (.literal (toString f.number) :: fieldMarks f)

/-- The field with the given name in the structure of the message `owner`, which stands `depth`
levels inside the file. -/
def structField (c : Context) (owner : String) (depth : Nat) (name : String)
    (f : SchemaBindings.Field) : Binder StructField := do
  let name ← Ident.ofName name
  let element ← elementType c owner depth f
  return {
    attributes := docAttributes f.docs ++ [fieldAttribute c f]
    isPublic := true, name, type := withCardinality element f.cardinality }

/-- The fields of a structure in order, with names that differ. -/
def structFields (c : Context) (owner : String) (depth : Nat) :
    List SchemaBindings.Field → Naming.Table → Binder (List StructField)
  | [], _ => return []
  | f :: rest, names => do
    let (name, names) := names.assignUnique (Naming.fieldName f.name)
    let first ← structField c owner depth name f
    return first :: (← structFields c owner depth rest names)

end SchemaBindings.Binding
