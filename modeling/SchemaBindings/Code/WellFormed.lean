import SchemaBindings.Code.Tree.PartTest
import SchemaBindings.Code.Tree.Reader
import SchemaBindings.Code.Tree.Tokens
import SchemaBindings.Failure

/-!
Which trees can be written down and read back. What was read from a text always can; what remains to
be checked is the names of items and the places where a given path is put into a form that not every
path can take. A body that reads back as another one is replaced by that.
-/

namespace SchemaBindings.Code

/-! ## Paths -/

/-- The words that end a path without arguments behind them. -/
def argumentless : List String := ["super", "self", "crate", "try"]

/-- Whether arguments can be written behind the path. -/
def Path.takesArgs (p : Path) : Bool :=
  match p.segments.getLast? with
  | some (.mk ident .none) => !argumentless.contains ident.text
  | _ => false

/-- Whether a type can begin with the path. -/
def Path.beginsType (p : Path) : Bool :=
  p.leading || p.segments.head?.all (·.ident.text != "try")

/-- Whether the path can name an attribute. -/
def Path.namesAttribute (p : Path) : Bool :=
  p.isPlain && p.segments.all (·.ident.text != "try")

/-- Whether a segment can stand in a path that is a value: its arguments need `::` before them. -/
def Segment.standsInValue : Segment → Bool
  | .mk _ .none => true
  | .mk _ (.angle turbofish _ _) => turbofish
  | .mk _ (.callable ..) => false

/-- Whether the path can be a value, which a single `try` cannot be. -/
def Path.standsAsValue (p : Path) : Bool :=
  p.segments.all Segment.standsInValue && (p.leading || p.segments.map (·.ident.text) != ["try"])

/-- Whether names can be imported from a module path. -/
def Path.isImportable (p : Path) : Bool :=
  p.segments.all fun s => s.isPlain && s.ident.text != "Self"

/-! ## Types, expressions and statements -/

/-- The tests that make a type or a statement well-formed. -/
def wellFormed : PartTest where
  type
    | .applied p _ => p.takesArgs && p.beginsType
    | _ => true
  expr
    | .path p => p.standsAsValue
    | .applied p _ => p.takesArgs && p.standsAsValue
    | _ => true
  statement
    | .effect e | .result e => !Reader.beginsItem e.tokens
    | _ => true

/-! ## Items -/

def Attribute.isWellFormed : Attribute → Bool
  | .doc _ => true
  | .plain name | .call name _ => name.namesAttribute

/-- Whether everything but the body is well-formed. -/
def Function.hasWellFormedHead (f : Function) : Bool :=
  f.attributes.all Attribute.isWellFormed && f.name.isName &&
    f.parameters.all (·.type.all wellFormed) && f.output.all wellFormed

def StructField.isWellFormed (f : StructField) : Bool :=
  f.attributes.all Attribute.isWellFormed && f.name.isName && f.type.all wellFormed

def Variant.isWellFormed (v : Variant) : Bool :=
  v.attributes.all Attribute.isWellFormed && v.name.isName && v.discriminant.all wellFormed

def Constant.isWellFormed (c : Constant) : Bool :=
  c.name.isName && c.type.all wellFormed && c.value.all wellFormed

/-- The function itself if it is well-formed, or the one that its body reads back as. -/
def Function.readBack? (f : Function) : Option Function :=
  if !f.hasWellFormedHead then none
  else if allStatements wellFormed f.body then some f
  else (statements? (statementsTokens f.body)).map fun body => { f with body }

mutual

/-- The item that the given one reads back as. -/
def Item.readBack? : Item → Option Item
  | .use module names =>
    if module.isImportable && names.all Ident.isName then some (.use module names) else none
  | .moduleFile name => if name.isName then some (.moduleFile name) else none
  | .module attributes name items =>
    if attributes.all Attribute.isWellFormed && name.isName then
      (itemsReadBack? items).map (.module attributes name)
    else none
  | .struct attributes name fields =>
    if attributes.all Attribute.isWellFormed && name.isName && fields.all StructField.isWellFormed
    then some (.struct attributes name fields) else none
  | .unit attributes name =>
    if attributes.all Attribute.isWellFormed && name.isName then some (.unit attributes name)
    else none
  | .enum attributes name variants =>
    if attributes.all Attribute.isWellFormed && name.isName && variants.all Variant.isWellFormed
    then some (.enum attributes name variants) else none
  | .implementation self constant functions =>
    if self.all wellFormed && constant.all Constant.isWellFormed then
      (functions.mapM Function.readBack?).map (.implementation self constant)
    else none
  | .other parts assemble => some (.other parts assemble)

def itemsReadBack? : List Item → Option (List Item)
  | [] => some []
  | i :: rest => do return (← i.readBack?) :: (← itemsReadBack? rest)

end

/-- The file that the given one reads back as. -/
def File.checked (f : File) : Except Failure File :=
  match itemsReadBack? f.items with
  | some items => .ok { f with items }
  | none => .error .malformedCode

end SchemaBindings.Code
