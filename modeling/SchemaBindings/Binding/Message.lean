import SchemaBindings.Binding.Field

/-!
The structure of a message and the enumeration of an enum. What is nested in a message stands in a
module behind its structure.
-/

namespace SchemaBindings.Binding

open Code

/-- The name that a definition is registered under. -/
def definedName (c : Context) (fullName : String) : Except Failure Ident :=
  match c.symbols.get? fullName with
  | none => .error (.unregistered fullName)
  | some s => Ident.ofName s.name

/-- The attribute that derives traits, the last one given by its path. -/
def deriveAttribute (traits : List String) (last : Path) : Attribute :=
  .call (.ofNames false ["derive"])
    (traits.map (fun t => .path (.ofNames false [t])) ++ [.path last])

/-! ## Enums -/

/-- The number of the variant that is the default one: zero if there is such a value, else the first
number. -/
def defaultNumber (first : EnumValue) (values : List EnumValue) : Int :=
  if values.any (·.number == 0) then 0 else first.number

/-- A number as the value of a variant. -/
def discriminant (n : Int) : Expr :=
  let magnitude := Expr.literal (toString n.natAbs)
  if n < 0 then magnitude.negated else magnitude

/-- The variants of values in order; a value whose number was seen before has none. -/
def enumVariants (default : Int) :
    List EnumValue → List Int → Naming.Table → Except Failure (List Variant)
  | [], _, _ => .ok []
  | v :: rest, seen, names =>
    if seen.contains v.number then enumVariants default rest seen names
    else do
      let (name, names) := names.assignUnique (Naming.variantName v.label)
      let name ← Ident.ofName name
      let mark : List Attribute :=
        if v.number = default then [.plain (.ofNames false ["default"])] else []
      let others ← enumVariants default rest (v.number :: seen) names
      return ⟨docAttributes v.docs ++ mark, name, discriminant v.number⟩ :: others

def enumItem (c : Context) (scope : String) (e : SchemaBindings.Enum) : Except Failure Item := do
  let fullName := qualify scope e.name
  let name ← definedName c fullName
  match e.values with
  | [] => .error (.emptyEnum fullName)
  | first :: rest =>
    let variants ← enumVariants (defaultNumber first (first :: rest)) (first :: rest) []
      { scope := fullName }
    let derive := deriveAttribute
      ["Debug", "Clone", "Copy", "PartialEq", "Eq", "Hash", "PartialOrd", "Ord", "Default"]
      c.library.enumDerive
    let repr := Attribute.call (.ofNames false ["repr"]) [.path (.ofNames false ["i32"])]
    return .enum (docAttributes e.docs ++ [derive, repr]) name variants

/-! ## Messages -/

mutual

/-- The items of a message that stands `depth` levels inside the file. -/
def messageItems (c : Context) (scope : String) (depth : Nat) : Message → Binder (List Item)
  | ⟨messageName, fields, messages, enums, docs⟩ => do
    let fullName := qualify scope messageName
    let name ← definedName c fullName
    let fields ← structFields c fullName depth fields { scope := fullName }
    let derive := deriveAttribute ["Debug", "Clone", "PartialEq"] c.library.messageDerive
    let item := Item.struct (docAttributes docs ++ [derive]) name fields
    if messages.isEmpty && enums.isEmpty then return [item]
    let module ← Ident.ofName (Naming.moduleName messageName)
    let enums ← (enums.mapM (enumItem c fullName) : Except Failure (List Item))
    let messages ← allMessageItems c fullName (depth + 1) messages
    let doc := " Definitions nested in \x60" ++ messageName ++ "\x60."
    return [item, .module [.doc doc] module (enums ++ messages)]

def allMessageItems (c : Context) (scope : String) (depth : Nat) :
    List Message → Binder (List Item)
  | [] => return []
  | m :: rest => do
    let first ← messageItems c scope depth m
    return first ++ (← allMessageItems c scope depth rest)

end

end SchemaBindings.Binding
