import SchemaBindings.Code.Print

/-!
The layout of items and files.
-/

namespace SchemaBindings.Code

open Layout (Doc)
open Print

namespace Print

/-! ## Attributes -/

def argTokens : AttributeArg → List Token
  | .path p => p.tokens
  | .literal text => [.literal text]
  | .setting name literal => [.word name, .mark '=' false, .literal literal]

def printAttribute : Attribute → List Doc
  | .doc line => outerDoc line
  | .plain name => .text "#[" :: (name.print .simple ++ [.text "]", space])
  | .call name args =>
    let inner := Token.group .paren (withCommas false (args.map argTokens))
    .text "#[" :: (name.print .simple ++ (attributeToken .mark true inner).1 ++ [.text "]", space])

def printAttributes (as : List Attribute) : List Doc :=
  as.flatMap printAttribute

/-! ## Functions -/

def printReceiver : Receiver → List (List Doc)
  | .none => []
  | .shared => [text "&self"]

def printParameter (p : Parameter) : List Doc :=
  .text (p.name.text ++ ": ") :: p.type.print

def printFunction (f : Function) : List Doc :=
  let inputs := printReceiver f.receiver ++ f.parameters.map printParameter
  let body := lines (printStatements f.body)
  printAttributes f.attributes ++
    [.group true 4 (.text (if f.isAsync then "pub async fn " else "pub fn ") ::
      .text f.name.text :: .text "(" :: neverBreak ::
      .group true 0 (outdented (zeroBreak :: commaItems inputs)) :: .text ")" ::
      .group true (-4) (.text " -> " :: f.output.print) :: .text " \x7b" :: body),
     .text "\x7d", hardBreak]

/-! ## Items -/

def printStructField (f : StructField) : List Doc :=
  printAttributes f.attributes ++
    .text ((if f.isPublic then "pub " else "") ++ f.name.text ++ ": ") ::
    (f.type.print ++ [.text ",", hardBreak])

def printVariant (v : Variant) : List Doc :=
  printAttributes v.attributes ++
    .text (v.name.text ++ " = ") :: (v.discriminant.print .inner ++ [.text ",", hardBreak])

/-- An item with a body in braces. -/
def braced (head body : List Doc) : List Doc :=
  [.group true 4 (head ++ .text " \x7b" :: lines body), .text "\x7d", hardBreak]

def printImports (module : Path) (names : List Ident) : List Doc :=
  let tree := match names with
    | [name] => text name.text
    | names => [.text "\x7b", .group true 4 (outdented
        [zeroBreak, .group false 0 (joined (names.map fun n => text n.text)), lastComma]),
        .text "\x7d"]
  .text "use " :: (module.print .simple ++ .text "::" :: (tree ++ [.text ";", hardBreak]))

def printConstant (c : Constant) : List Doc :=
  [.group true 4 (.text ("pub const " ++ c.name.text ++ ": ") :: (c.type.print ++ .text " = " ::
    neverBreak :: (c.value.print .inner ++ text ";"))), hardBreak]

/-- The head of an implementation. -/
def printSelf (self : Ty) : List Doc :=
  [.group false (-4) (.group true 4 (text "impl") :: .text " " :: self.print)]

mutual

def printItem : Item → List Doc
  | .use module names => printImports module names
  | .moduleFile name => [.group true 4 (text ("pub mod " ++ name.text ++ ";")), hardBreak]
  | .module as name is =>
    printAttributes as ++ braced (text ("pub mod " ++ name.text)) (printItems is)
  | .struct as name fields =>
    let body := fields.flatMap printStructField
    printAttributes as ++ braced (text ("pub struct " ++ name.text)) body
  | .unit as name => printAttributes as ++ [.text ("pub struct " ++ name.text ++ ";"), hardBreak]
  | .enum as name variants =>
    printAttributes as ++ braced (text ("pub enum " ++ name.text)) (variants.flatMap printVariant)
  | .implementation self constant functions =>
    braced (printSelf self)
      ((constant.map printConstant).getD [] ++ functions.flatMap printFunction)
  | .other parts assemble => (assemble ((printParts parts).map .ofDocs)).layout.getD []

def printItems : List Item → List Doc
  | [] => []
  | i :: rest => printItem i ++ printItems rest

end

end Print

/-- The text of a file. -/
def File.render (f : File) : String :=
  Layout.render [.group true 0 (f.docs.flatMap Print.innerDoc ++ Print.printItems f.items)]

end SchemaBindings.Code
