import SchemaBindings.Code.Tree.Reader.Statement
import SchemaBindings.Code.Tree.Reader.Type

/-!
Reading identifiers, paths, types and bodies. A text is read only if nothing of it is left.
-/

namespace SchemaBindings.Code

/-- The readers of everything that nests at most so deep. -/
def Grammar.upTo : Nat → Grammar
  | 0 => .nothing
  | depth + 1 =>
    let g := upTo depth
    { type := Reader.type g
      typePath := Reader.path g false
      bound := Reader.bound g
      expr := Reader.expr g
      operand := Reader.operand g
      extended := Reader.extended g
      early := Reader.early g
      pattern := Reader.pattern g
      statements := Reader.statements g
      item := Reader.item g }

namespace Reader

/-- Reads all of the tokens. Of four readers that nest in each other one takes a token at least. -/
def all (r : Grammar → Reader α) (ts : List Token) : Option α :=
  match r (.upTo (4 * weights ts + 4)) ts with
  | some (a, []) => some a
  | _ => none

def whole (r : Grammar → Reader α) (text : String) : Option α :=
  (Lexer.tokens? text).bind (all r)

end Reader

def Ident.read? (text : String) : Option Ident :=
  Reader.whole (fun _ => Reader.name) text

def Path.read? (text : String) : Option Path :=
  Reader.whole (·.typePath) text

def Ty.read? (text : String) : Option Ty :=
  Reader.whole (·.type true) text

/-- The statements that tokens are. -/
def statements? (ts : List Token) : Option (List Statement) :=
  Reader.all (·.statements) ts

end SchemaBindings.Code
