import SchemaBindings.Code.Ident
import SchemaBindings.Code.Operator
import SchemaBindings.Code.Quoted
import SchemaBindings.Code.Written

/-!
The syntax of the generated code: paths, types, expressions, patterns and statements as they may be
written in a configuration, and items and files. The items that are generated have forms of their
own, all others are known by their parts.
-/

namespace SchemaBindings.Code

/-- A lifetime or a name that an opaque type may depend on. -/
structure Captured where
  isLifetime : Bool
  name : String

/-- What a reference or an address is taken as. -/
inductive Borrow where
  | shared
  | mutable
  | rawConst
  | rawMutable
deriving DecidableEq, Repr

/-- An expression without parts. -/
inductive BareForm where
  /-- The value that is left to be inferred. -/
  | infer
  | fullRange
  /-- `return`, `break`, `continue` or `yield`. -/
  | jump (word : String) (label : Option String)

/-- The ways in which an expression is made from one other. -/
inductive UnaryForm where
  | borrow (kind : Borrow)
  /-- An operator before its operand. -/
  | operator (c : Char)
  | paren
  /-- The early return of an error. -/
  | propagate
  | await
  /-- A field by its name or its place. -/
  | field (member : String)
  | jump (word : String) (label : Option String)
  | rangeFrom
  | rangeTo (isClosed : Bool)

/-- The ways in which an expression is made from two others. -/
inductive BinaryForm where
  | operator (operator : BinaryOperator)
  | range (isClosed : Bool)
  | index
  /-- An array of so many equal elements. -/
  | repetition

/-- The ways in which an expression is made from any number of others. -/
inductive ListForm where
  | tuple
  | array
deriving DecidableEq, Repr

mutual

/-- An attribute by the tokens between its brackets. A value behind an equals sign is kept apart
unless it is a literal. -/
inductive Mark where
  | mk (tokens : List Token) (value : Option Expr)

/-- A path such as `::a::b<C>`. -/
inductive Path where
  | mk (leading : Bool) (segments : List Segment)

inductive Segment where
  | mk (ident : Ident) (args : PathArgs)

inductive PathArgs where
  | none
  /-- Arguments in angle brackets; `turbofish` says that `::` stands before them and `trailing`
  that a comma stands after the last one. -/
  | angle (turbofish : Bool) (args : List GenericArg) (trailing : Bool)
  /-- The parameter and result types of a callable trait. -/
  | callable (inputs : List Ty) (trailing : Bool) (output : Option Ty)

inductive GenericArg where
  | lifetime (name : String)
  | type (type : Ty)
  | const (value : Expr)
  /-- The type of an associated item, as in `Item = T`. -/
  | assocType (ident : Ident) (args : PathArgs) (type : Ty)
  | assocConst (ident : Ident) (args : PathArgs) (value : Expr)
  | constraint (ident : Ident) (args : PathArgs) (bounds : List Bound) (trailing : Bool)

/-- A parameter after `for`. -/
inductive GenericParam where
  | lifetime (marks : List Mark) (name : String) (bounds : List String) (trailing : Bool)
  | type (marks : List Mark) (ident : Ident) (bounds : List Bound) (trailing : Bool)
      (default : Option Ty)
  | const (marks : List Mark) (ident : Ident) (type : Ty) (default : Option Expr)

inductive Quantifier where
  | none
  | forAll (params : List GenericParam) (trailing : Bool)

inductive Ty where
  | path (path : Path)
  /-- A path with type arguments written behind it. -/
  | applied (path : Path) (args : List Ty)
  /-- A path into an implementation, as in `<T as Trait>::Out`; `position` counts the segments that
  name the trait. -/
  | qualified (self : Ty) (position : Nat) (path : Path)
  | reference (lifetime : Option String) (isMut : Bool) (type : Ty)
  | pointer (isMut : Bool) (type : Ty)
  | slice (type : Ty)
  | array (type : Ty) (length : Expr)
  | tuple (types : List Ty) (trailing : Bool)
  | paren (type : Ty)
  | never
  | infer
  | function (quantifier : Quantifier) (isUnsafe : Bool) (abi : Option (Option String))
      (inputs : List FunctionInput) (trailing : Bool) (variadic : Option Variadic)
      (output : Option Ty)
  | traitObject (isDyn : Bool) (bounds : List Bound) (trailing : Bool)
  | implTrait (bounds : List Bound) (trailing : Bool)
  | macroCall (path : Path) (delimiter : Delimiter) (inner : List Token)
  /-- A type of which nothing is known but its tokens. -/
  | verbatim (tokens : List Token)

/-- More inputs of a function than are listed, with a name or without one. -/
inductive Variadic where
  | mk (marks : List Mark) (name : Option Ident) (trailing : Bool)

inductive FunctionInput where
  | mk (marks : List Mark) (name : Option Ident) (type : Ty)

inductive Bound where
  | lifetime (name : String)
  | trait (inParens : Bool) (isMaybe : Bool) (quantifier : Quantifier) (path : Path)
  /-- The parameters that an opaque type depends on. -/
  | captures (params : List Captured) (trailing : Bool)
  /-- A bound of which nothing is known but its tokens. -/
  | verbatim (tokens : List Token)

inductive Expr where
  | literal (text : String)
  | path (path : Path)
  /-- A path with type arguments written behind it. -/
  | applied (path : Path) (args : List Ty)
  | qualified (self : Ty) (position : Nat) (path : Path)
  | bare (form : BareForm)
  | unary (form : UnaryForm) (value : Expr)
  | binary (form : BinaryForm) (left right : Expr)
  | list (form : ListForm) (elements : List Expr) (trailing : Bool)
  | cast (value : Expr) (type : Ty)
  | call (function : Expr) (args : List Expr) (trailing : Bool)
  | methodCall (receiver : Expr) (name : Ident) (typeArgs : PathArgs) (args : List Expr)
      (trailing : Bool)
  | macroCall (path : Path) (delimiter : Delimiter) (inner : List Token)
  /-- A structure; `dots` says that `..` follows its entries, with the rest behind it or without. -/
  | structure (head : Expr) (entries : List Expr) (trailing : Bool) (dots : Bool)
      (rest : Option Expr)
  /-- The value of a field, which is the variable of its name if it is left out. In structures
  only. -/
  | entry (marks : List Mark) (member : String) (value : Option Expr)
  | closure (quantifier : Quantifier) (words : List String) (params : List Pattern)
      (trailing : Bool) (output : Option Ty) (body : Expr)
  /-- Statements in braces, after words such as `unsafe` or `loop`. -/
  | block (label : Option String) (words : List String) (body : List Statement)
  | conditional (condition : Expr) (body : List Statement) (otherwise : Option Expr)
  | whileLoop (label : Option String) (condition : Expr) (body : List Statement)
  | forLoop (label : Option String) (pattern : Pattern) (source : Expr) (body : List Statement)
  | choice (value : Expr) (inner : List Mark) (arms : List Expr)
  /-- A case with the value that belongs to it. In choices only. -/
  | arm (marks : List Mark) (pattern : Pattern) (guard : Option Expr) (body : Expr) (comma : Bool)
  /-- Whether a value has a form. -/
  | test (pattern : Pattern) (value : Expr)
  | marked (marks : List Mark) (value : Expr)
  /-- An expression of which nothing is known but its tokens. -/
  | verbatim (tokens : List Token)

inductive Pattern where
  | wildcard
  | dots
  | variable (isRef isMut : Bool) (name : Ident)
  /-- A variable for the whole of what has the form behind it. -/
  | alias (pattern inner : Pattern)
  /-- A literal, a path, a range of such, a constant block or a macro. -/
  | value (value : Expr)
  | reference (isMut : Bool) (pattern : Pattern)
  | paren (pattern : Pattern)
  | tuple (patterns : List Pattern) (trailing : Bool)
  | slice (patterns : List Pattern) (trailing : Bool)
  | variant (head : Expr) (patterns : List Pattern) (trailing : Bool)
  | structure (head : Expr) (entries : List Pattern) (trailing : Bool) (rest : Option (List Mark))
  /-- The form of a field; without its name, that of the variable that the pattern is. In structures
  only. -/
  | entry (marks : List Mark) (member : Option String) (pattern : Pattern)
  | alternatives (leading : Bool) (patterns : List Pattern)
  | typed (pattern : Pattern) (type : Ty)
  | marked (marks : List Mark) (pattern : Pattern)
  /-- A pattern of which nothing is known but its tokens. -/
  | verbatim (tokens : List Token)

inductive Statement where
  /-- A binding without a value leaves its variables unset. -/
  | binding (marks : List Mark) (pattern : Pattern) (value : Option Expr) (otherwise : Option Expr)
  | effect (value : Expr)
  /-- An expression without a semicolon, which may be the value of the enclosing body. -/
  | result (value : Expr)
  | macroCall (marks : List Mark) (path : Path) (delimiter : Delimiter) (inner : List Token)
      (semicolon : Bool)
  /-- An item that the body declares for itself, by its parts and how it is written once they
  are. -/
  | item (parts : List Part) (assemble : List Written → Written)
  /-- An attribute of what the statements are the body of. -/
  | innerMark (mark : Mark)
  | empty

/-- What an item is made of that has no form of its own. -/
inductive Part where
  | marks (marks : List Mark)
  | innerMarks (marks : List Mark)
  | param (param : GenericParam)
  | quantifier (quantifier : Quantifier)
  /-- The trait that is implemented. -/
  | path (path : Path)
  | type (type : Ty)
  | bound (bound : Bound)
  | expr (value : Expr)
  | pattern (pattern : Pattern)
  | statements (body : List Statement)

end

abbrev Marks := List Mark

instance : Inhabited Path := ⟨.mk false []⟩
instance : Inhabited Ty := ⟨.never⟩
instance : Inhabited Expr := ⟨.literal ""⟩
instance : Inhabited Pattern := ⟨.wildcard⟩
instance : Inhabited Statement := ⟨.empty⟩

/-- A word, a literal or a setting in the arguments of an attribute. -/
inductive AttributeArg where
  | path (path : Path)
  | literal (text : String)
  | setting (name : String) (literal : String)

inductive Attribute where
  | doc (line : String)
  | plain (name : Path)
  | call (name : Path) (args : List AttributeArg)

/-- The value that a function belongs to. Its type is `Self`, which no item can be called. -/
inductive Receiver where
  | none
  | shared
deriving DecidableEq

structure Parameter where
  name : Ident
  type : Ty

structure Function where
  attributes : List Attribute
  isAsync : Bool
  name : Ident
  receiver : Receiver
  parameters : List Parameter
  output : Ty
  body : List Statement

structure StructField where
  attributes : List Attribute
  isPublic : Bool
  name : Ident
  type : Ty

structure Variant where
  attributes : List Attribute
  name : Ident
  discriminant : Expr

/-- A public constant of an implementation. -/
structure Constant where
  name : Ident
  type : Ty
  value : Expr

inductive Item where
  /-- Imports of one or several names from a module. -/
  | use (module : Path) (names : List Ident)
  /-- A module in a file of its own. -/
  | moduleFile (name : Ident)
  | module (attributes : List Attribute) (name : Ident) (items : List Item)
  | struct (attributes : List Attribute) (name : Ident) (fields : List StructField)
  /-- A structure that is nothing but its name. -/
  | unit (attributes : List Attribute) (name : Ident)
  | enum (attributes : List Attribute) (name : Ident) (variants : List Variant)
  /-- An inherent implementation of a type: a constant, if it holds one, and its functions. -/
  | implementation (self : Ty) (constant : Option Constant) (functions : List Function)
  /-- Anything else that a file may hold, its own attributes included, by its parts and how it is
  written once they are. None is generated. -/
  | other (parts : List Part) (assemble : List Written → Written)

/-- A file: the documentation lines at its top and its items. -/
structure File where
  docs : List String
  items : List Item

/-! ## Building paths and types -/

def Path.leading : Path → Bool
  | .mk leading _ => leading

def Path.segments : Path → List Segment
  | .mk _ segments => segments

def Segment.ident : Segment → Ident
  | .mk ident _ => ident

def Segment.args : Segment → PathArgs
  | .mk _ args => args

/-- Whether a segment has no arguments. -/
def Segment.isPlain : Segment → Bool
  | .mk _ .none => true
  | _ => false

/-- Whether the path consists of names alone. -/
def Path.isPlain (p : Path) : Bool :=
  p.segments.all Segment.isPlain

/-- The path of plain names. -/
def Path.ofNames (leading : Bool) (names : List String) : Path :=
  .mk leading (names.map fun name => .mk ⟨name⟩ .none)

def Path.appendIdents (p : Path) (idents : List Ident) : Path :=
  .mk p.leading (p.segments ++ idents.map (.mk · .none))

/-- The path with further names behind it. -/
def Path.appendNames (p : Path) (names : List String) : Path :=
  p.appendIdents (names.map Ident.mk)

/-- The type that a name stands for. -/
def Ty.named (name : Ident) : Ty :=
  .path (.ofNames false [name.text])

/-- The type that a global path names, with one type argument. -/
def Ty.global (names : List String) (arg : Ty) : Ty :=
  .applied (.ofNames true names) [arg]

def Expr.variable (name : String) : Expr :=
  .path (.ofNames false [name])

namespace Expr

/-- The expression behind its attributes. -/
def unmarked : Expr → Expr
  | .marked _ e => e
  | e => e

/-- Whether the expression is a statement without a semicolon behind it. -/
def endsStatement (e : Expr) : Bool :=
  match e.unmarked with
  | .block _ words _ => !words.contains "async"
  | .conditional .. | .whileLoop .. | .forLoop .. | .choice .. => true
  | _ => false

def reference (value : Expr) : Expr :=
  .unary (.borrow .shared) value

def negated (value : Expr) : Expr :=
  .unary (.operator '-') value

def propagated (value : Expr) : Expr :=
  .unary .propagate value

def awaited (value : Expr) : Expr :=
  .unary .await value

def field (receiver : Expr) (name : String) : Expr :=
  .unary (.field name) receiver

/-- A function of one parameter. -/
def lambda (parameter : Ident) (body : Expr) : Expr :=
  .closure .none [] [.variable false false parameter] false none body

/-- A structure whose fields are taken from variables of the same names. -/
def ofVariables (path : Path) (names : List String) : Expr :=
  .structure (.path path) (names.map fun name => .entry [] name none) false false none

end Expr

/-- A call of the function that a path names. -/
def Path.call (p : Path) (args : List Expr) : Expr :=
  .call (.path p) args false

/-- The call of a function that belongs to a value. -/
def Expr.callMethod (receiver : Expr) (name : String) (args : List Expr) : Expr :=
  .methodCall receiver ⟨name⟩ .none args false

/-- A variable that a value is bound to. -/
def Pattern.ofName (name : String) : Pattern :=
  .variable false false ⟨name⟩

def Statement.bind (pattern : Pattern) (value : Expr) : Statement :=
  .binding [] pattern (some value) none

/-! ## Building items -/

/-- The constant for the name of a service on the wire. -/
def Constant.wireName (serviceName : String) : Constant where
  name := ⟨"SERVICE_NAME"⟩
  type := .reference none false (.named ⟨"str"⟩)
  value := .literal (quoted serviceName)

/-- The implementation of a client: its wire name, if it holds one, and its functions. -/
def Item.client (name : Ident) (serviceName : Option String) (functions : List Function) : Item :=
  .implementation (.named name) (serviceName.map .wireName) functions

end SchemaBindings.Code
