import SchemaBindings.Code.Tree

/-!
What the layout of an expression depends on beside its parts.
-/

namespace SchemaBindings.Code

/-! ## Chains -/

/-- Whether an expression is a variable of at most four characters. -/
def Expr.isShortVariable : Expr → Bool
  | .path (.mk false [.mk ident .none]) => ident.text.utf8ByteSize ≤ 4
  | _ => false

/-- Where an expression stands: somewhere inside, at the start of a line, or before a dot or a call
inside a chain, which may itself start a line. -/
inductive Position where
  | inner
  | lineStart
  | receiver (startsLine : Bool)
deriving DecidableEq

def Position.startsLine : Position → Bool
  | .inner => false
  | .lineStart => true
  | .receiver startsLine => startsLine

def Position.isReceiver : Position → Bool
  | .receiver _ => true
  | _ => false

/-- The position of what is called. -/
def Position.ofFunction : Position → Position
  | .receiver _ => .receiver false
  | position => position

/-! ## Lists -/

/-- Whether the text of a number has a fraction or an exponent. -/
def isFraction (number : String) : Bool :=
  let cs := number.toList
  let isPrefixed := match cs with
    | '0' :: c :: _ => c = 'x' || c = 'o' || c = 'b'
    | _ => false
  let rest := cs.dropWhile fun c => c.isDigit || c = '_'
  let hasExponent := match rest with
    | c :: d :: _ => (c = 'e' || c = 'E') && (d.isDigit || d = '+' || d = '-')
    | _ => false
  !isPrefixed && (rest.head? = some '.' || hasExponent)

/-- Whether an expression is a literal of which several stand on a line: a whole number, a
character, a byte or a truth value. -/
def Expr.isPlainLiteral : Expr → Bool
  | .literal l =>
    match l.toList with
    | '\'' :: _ | 'b' :: '\'' :: _ => true
    | c :: _ => l = "true" || l = "false" || (c.isDigit && !isFraction l)
    | [] => false
  | _ => false

/-- Whether an expression stands alone between the parentheses of a call without a line for
itself. -/
def Expr.isBlockLike : Expr → Bool
  | .closure .. | .structure .. | .list .. => true
  | .block _ words _ => !words.contains "loop"
  | _ => false

/-- Whether a constant argument stands without braces of its own. -/
def Expr.isBare : Expr → Bool
  | .literal _ | .block _ [] _ | .path (.mk false [.mk _ .none]) => true
  | _ => false

/-! ## Bodies -/

/-- Whether the body of a closure gets braces if it does not stand on the line of its
parameters. -/
def Expr.takesBraces (body : Expr) : Bool :=
  match body with
  | .call .. | .choice .. => false
  | e => !e.isBlockLike

/-- Whether an expression can begin a statement without ending it. -/
def Expr.goesOn (e : Expr) : Bool :=
  match e with
  | .macroCall _ delimiter _ => delimiter != .brace
  | e => !e.endsStatement

/-- Whether an expression can stand as a statement. It cannot if what it begins with would be one by
itself. -/
def Expr.isStatement : Expr → Bool
  | .binary (.operator _) left _ | .binary (.range _) left _ | .binary .index left _ =>
    left.goesOn && left.isStatement
  | .call e .. | .cast e _ | .unary .rangeFrom e => e.goesOn && e.isStatement
  | .unary .await e | .unary (.field _) e | .unary .propagate e | .methodCall e .. => e.isStatement
  | _ => true

/-- Whether an expression is a statement with a semicolon even at the end of a body. -/
def Expr.addsSemicolon (e : Expr) : Bool :=
  match e.unmarked with
  | .binary (.operator (.assign _)) .. | .bare (.jump ..) | .unary (.jump ..) _ => true
  | _ => false

/-- Whether an expression needs no semicolon as a statement. -/
def Expr.dropsSemicolon : Expr → Bool
  | .forLoop .. | .whileLoop .. | .conditional _ _ none => true
  | .conditional _ _ (some otherwise) => otherwise.dropsSemicolon
  | .marked _ e => e.dropsSemicolon
  | _ => false

/-- Whether the brace behind a condition goes to the next line if the condition is broken. -/
def Expr.isOpenEnded : Expr → Bool
  | .unary .await _ | .unary (.field _) _ | .binary (.operator _) .. | .binary .index .. => true
  | .cast .. | .methodCall .. => true
  | .unary .rangeFrom _ => false
  | .unary _ e | .call e .. | .binary (.range _) _ e | .test _ e | .marked _ e => e.isOpenEnded
  | _ => false

end SchemaBindings.Code
