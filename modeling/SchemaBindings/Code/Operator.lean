/-!
The operators between two operands, and how strongly they bind.
-/

namespace SchemaBindings.Code

inductive ArithmeticOperator where
  | mul | div | rem | add | sub | shl | shr | bitAnd | bitXor | bitOr
deriving DecidableEq, Repr

def ArithmeticOperator.all : List ArithmeticOperator :=
  [.mul, .div, .rem, .add, .sub, .shl, .shr, .bitAnd, .bitXor, .bitOr]

def ArithmeticOperator.text : ArithmeticOperator → String
  | .mul => "*" | .div => "/" | .rem => "%" | .add => "+" | .sub => "-"
  | .shl => "<<" | .shr => ">>" | .bitAnd => "&" | .bitXor => "^" | .bitOr => "|"

inductive Comparison where
  | eq | ne | lt | le | gt | ge
deriving DecidableEq, Repr

def Comparison.text : Comparison → String
  | .eq => "==" | .ne => "!=" | .lt => "<" | .le => "<=" | .gt => ">" | .ge => ">="

inductive BinaryOperator where
  | arithmetic (operator : ArithmeticOperator)
  | comparison (relation : Comparison)
  | and
  | or
  /-- An assignment, of the left operand's change by an operator if there is one. -/
  | assign (change : Option ArithmeticOperator)
deriving DecidableEq, Repr

/-- How strongly something binds its operands, the weakest first. -/
inductive Strength where
  | weakest | assign | range | or | and | comparison | bitOr | bitXor | bitAnd | shift | sum
  | product | cast
deriving DecidableEq, Repr

def Strength.rank : Strength → Nat :=
  Strength.ctorIdx

namespace BinaryOperator

def text : BinaryOperator → String
  | .arithmetic operator => operator.text
  | .comparison relation => relation.text
  | .and => "&&"
  | .or => "||"
  | .assign none => "="
  | .assign (some change) => change.text ++ "="

def strength : BinaryOperator → Strength
  | .arithmetic .mul | .arithmetic .div | .arithmetic .rem => .product
  | .arithmetic .add | .arithmetic .sub => .sum
  | .arithmetic .shl | .arithmetic .shr => .shift
  | .arithmetic .bitAnd => .bitAnd
  | .arithmetic .bitXor => .bitXor
  | .arithmetic .bitOr => .bitOr
  | .comparison _ => .comparison
  | .and => .and
  | .or => .or
  | .assign _ => .assign

/-- All operators, each one before those whose texts it begins with, but for the plain
assignment. -/
def all : List BinaryOperator :=
  ArithmeticOperator.all.map (fun o => .assign (some o)) ++
    [.and, .or, .arithmetic .shl, .arithmetic .shr] ++
    [Comparison.eq, .le, .ne, .ge].map .comparison ++
    ArithmeticOperator.all.map .arithmetic ++ [.comparison .lt, .comparison .gt]

end BinaryOperator

end SchemaBindings.Code
