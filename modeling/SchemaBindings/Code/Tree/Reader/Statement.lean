import SchemaBindings.Code.Tree.Reader.Expr
import SchemaBindings.Code.Tree.Reader.Item

/-!
Reading the statements of a body.
-/

namespace SchemaBindings.Code.Reader

/-! ## Items -/

/-- The words that an item begins with wherever they stand. -/
def itemWords : List String :=
  ["pub", "extern", "use", "fn", "mod", "type", "struct", "enum", "trait", "impl", "macro"]

/-- Whether an item begins with the word `static` here, and no closure. -/
def beginsStaticItem (ts : List Token) : Bool :=
  let behind := behindFirst ts
  beginsWord "static" ts && (beginsWord "mut" behind || beginsName behind)

/-- Whether an item begins with the word `const` here, and neither a body nor a closure. -/
def beginsConstItem (ts : List Token) : Bool :=
  let behind := behindFirst ts
  let isFunction := ["unsafe", "extern", "fn"].any (beginsWord · (behindFirst behind))
  beginsWord "const" ts &&
    !(beginsGroup .brace behind || beginsWord "static" behind ||
      beginsWord "async" behind && !isFunction || beginsWord "move" behind ||
      beginsOperator "|" behind)

/-- Whether an item begins here that a word begins with which other words follow. -/
def beginsPairedItem (ts : List Token) : Bool :=
  let behind := behindFirst ts
  beginsWord "unsafe" ts && !beginsGroup .brace behind ||
    beginsWord "async" ts && ["unsafe", "extern", "fn"].any (beginsWord · behind) ||
    beginsWord "union" ts && beginsName behind ||
    beginsWord "auto" ts && beginsWord "trait" behind ||
    beginsWord "default" ts && (beginsWord "unsafe" behind || beginsWord "impl" behind)

/-- Whether the tokens are those of an item. The word `crate` begins one unless a path follows. -/
def beginsItem (ts : List Token) : Bool :=
  itemWords.any (beginsWord · ts) ||
    beginsWord "crate" ts && !beginsOperator "::" (behindFirst ts) ||
    beginsStaticItem ts || beginsConstItem ts || beginsPairedItem ts

/-! ## Macros -/

/-- The path of the macro that a statement is, and what stands behind its exclamation mark. -/
def macroStart? (ts : List Token) : Option (Path × List Token) := do
  let (p, rest) ← plainPath ts
  if beginsOperator "!" rest then some (p, rest.drop 1) else none

/-- Whether a macro with a name follows, which is an item. -/
def isNamedMacro (behind : List Token) : Bool :=
  beginsName behind || beginsWord "try" behind

/-- Whether a macro in braces follows that nothing goes on with. -/
def isWholeMacro (behind : List Token) : Bool :=
  let after := behindFirst behind
  beginsGroup .brace behind && !beginsDot after && !beginsOperator "?" after

/-! ## Statements -/

variable (g : Grammar)

/-- The body behind the word `else`, which no value in braces stands before. -/
def divergence (value : List Token) : Reader (Option Expr) := do
  let endsWithBraces := match value.getLast? with
    | some (.group .brace _) => true
    | _ => false
  if endsWithBraces || !(← wordIf "else") then return none
  return some (.block none [] (← g.body))

def binding (marks : Marks) : Reader Statement := do
  word "let"
  let p ← g.pattern
  let p ← if ← operatorIf ":" then Pattern.typed p <$> g.type true else pure p
  let value ← preset (withTokens g.value)
  let otherwise ← match value with
    | some (_, tokens) => divergence g tokens
    | none => pure none
  operator ";"
  return .binding marks p (value.map (·.1)) otherwise

/-- The expression with attributes on its leftmost operand. -/
def Expr.markedLeft (marks : Marks) : Expr → Expr
  | .binary (.operator o) left right => .binary (.operator o) (markedLeft marks left) right
  | .cast e type => .cast (markedLeft marks e) type
  | .marked inner e => .marked (marks ++ inner) e
  | e => Expr.marked marks e

/-- An expression as a statement. A call of a macro is one of its own kind. -/
def exprStatement (marks : Marks) : Reader Statement := do
  let e ← g.early
  let semicolon ← operatorIf ";"
  match e with
  | .macroCall p delimiter inner =>
    if semicolon || delimiter = .brace then
      return .macroCall marks p delimiter inner semicolon
  | _ => pure ()
  let e := Expr.markedLeft marks e
  return if semicolon then .effect e else .result e

def statement : Reader Statement := do
  let before ← get
  let marks ← marks g
  let ts ← get
  let start := macroStart? ts
  if let some (p, behind) := start then
    if isWholeMacro behind then
      set behind
      let (delimiter, inner) ← group
      return .macroCall marks p delimiter inner (← operatorIf ";")
  if beginsWord "let" ts then binding g marks
  else if beginsItem ts || start.any (isNamedMacro ·.2) then
    set before
    let a ← item g
    return .item a.parts a.assemble
  else exprStatement g marks

/-- Whether nothing has to stand between the statement and the next one. -/
def Statement.isClosed : Statement → Bool
  | .result e => e.endsStatement
  | .macroCall _ _ delimiter _ semicolon => semicolon || delimiter = .brace
  | .binding .. | .effect _ | .item .. | .innerMark _ | .empty => true

/-- Statements up to the end of the tokens. -/
def statements : Reader (List Statement) :=
  many do
    if ← isAtEnd then return none
    if ← operatorIf ";" then return some .empty
    let s ← statement g
    if !Statement.isClosed s && !(← isAtEnd) then failure
    return some s

end SchemaBindings.Code.Reader
