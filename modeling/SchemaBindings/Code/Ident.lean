import SchemaBindings.Failure
import SchemaBindings.Text.IdentifierClass

/-!
Identifiers of the generated code. A spelling becomes an identifier if its characters allow it; that
it is no keyword matters only where the identifier names an item.
-/

namespace SchemaBindings.Code

/-- An identifier by its spelling, with the mark that makes a keyword usable if there is one. -/
structure Ident where
  text : String
deriving DecidableEq, Repr, Inhabited

/-- The words that cannot name an item. -/
def keywords : List String :=
  ["_", "abstract", "as", "async", "await", "become", "box", "break", "const", "continue", "crate",
   "do", "dyn", "else", "enum", "extern", "false", "final", "fn", "for", "if", "impl", "in", "let",
   "loop", "macro", "match", "mod", "move", "mut", "override", "priv", "pub", "ref", "return",
   "Self", "self", "static", "struct", "super", "trait", "true", "try", "type", "typeof", "unsafe",
   "unsized", "use", "virtual", "where", "while", "yield"]

/-- The words that stay what they are even when marked as usable. -/
def unmarkable : List String :=
  ["_", "super", "self", "Self", "crate"]

def hasIdentifierShape : List Char → Bool
  | [] => false
  | c :: rest => Text.isIdentifierStart c && rest.all Text.isIdentifierContinue

/-- The characters after the mark of a spelling that has one. -/
def afterMark? : List Char → Option (List Char)
  | 'r' :: '#' :: rest => some rest
  | _ => none

/-- The identifier with a spelling. -/
def Ident.ofText? (text : String) : Option Ident :=
  match afterMark? text.toList with
  | some rest =>
    if hasIdentifierShape rest && !unmarkable.contains (String.ofList rest) then some ⟨text⟩
    else none
  | none => if hasIdentifierShape text.toList then some ⟨text⟩ else none

/-- The identifier with a spelling that has to be one. -/
def Ident.ofName (text : String) : Except Failure Ident :=
  match Ident.ofText? text with
  | some i => .ok i
  | none => .error .unusableName

/-- Whether the identifier can name an item. -/
def Ident.isName (i : Ident) : Bool :=
  !keywords.contains i.text

end SchemaBindings.Code
