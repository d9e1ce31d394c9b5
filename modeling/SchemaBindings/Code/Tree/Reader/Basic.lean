import SchemaBindings.Code.Lexer
import SchemaBindings.Code.Tree.Assembly

/-!
Readers of syntax. A reader takes what it needs from the beginning of the tokens and leaves the
rest, or refuses them. Since the kinds of syntax hold each other, the readers of all kinds are
gathered in a record that the reader of each single kind is given.
-/

namespace SchemaBindings.Code

/-- Takes something from the beginning of the tokens, or refuses them. -/
abbrev Reader := StateT (List Token) Option

namespace Reader

/-! ## What tokens begin with -/

def beginsWord (w : String) : List Token → Bool
  | .word w' :: _ => w == w'
  | _ => false

def beginsAnyWord : List Token → Bool
  | .word _ :: _ => true
  | _ => false

/-- An identifier that is no keyword. -/
def beginsName : List Token → Bool
  | .word w :: _ => (Ident.mk w).isName
  | _ => false

/-- The marks of an operator, to which further marks may be joined. -/
def beginsOperator (text : String) (ts : List Token) : Bool :=
  go text.toList ts
where
  go : List Char → List Token → Bool
    | [c], .mark d _ :: _ => c == d
    | c :: cs, .mark d true :: rest => c == d && go cs rest
    | _, _ => false

def beginsGroup (d : Delimiter) : List Token → Bool
  | .group d' _ :: _ => d == d'
  | _ => false

def beginsLifetime : List Token → Bool
  | .mark '\'' true :: .word _ :: _ => true
  | _ => false

/-- Whether the text of a literal is that of a number. -/
def isNumber (literal : String) : Bool :=
  literal.toList.head?.any Char.isDigit

def beginsLiteral : List Token → Bool
  | .literal _ :: _ => true
  | .word w :: _ => w == "true" || w == "false"
  | .mark '-' _ :: .literal l :: _ => isNumber l
  | _ => false

/-- What stands behind the first token. A lifetime counts as one. -/
def behindFirst : List Token → List Token
  | .mark '\'' true :: .word _ :: rest => rest
  | _ :: rest => rest
  | [] => []

/-- Whether `::` follows, and behind it what is asked for. -/
def beginsDoubleColon (behind : List Token → Bool) (ts : List Token) : Bool :=
  beginsOperator "::" ts && behind (ts.drop 2)

/-- A dot that is not the beginning of a range. -/
def beginsDot (ts : List Token) : Bool :=
  beginsOperator "." ts && !beginsOperator ".." ts

/-- An exclamation mark that is not the beginning of a comparison. -/
def beginsBang (ts : List Token) : Bool :=
  beginsOperator "!" ts && !beginsOperator "!=" ts

/-- An equals sign that is not the beginning of an arrow. -/
def beginsEquals (ts : List Token) : Bool :=
  beginsOperator "=" ts && !beginsOperator "=>" ts

/-! ## Single tokens -/

def next (test : List Token → Bool) : Reader Bool :=
  return test (← get)

def drop (n : Nat) : Reader Unit :=
  modify (·.drop n)

def isAtEnd : Reader Bool :=
  next List.isEmpty

def operatorIf (text : String) : Reader Bool := do
  if ← next (beginsOperator text) then drop text.length; return true else return false

def operator (text : String) : Reader Unit := do
  if !(← operatorIf text) then failure

def wordIf (w : String) : Reader Bool := do
  if ← next (beginsWord w) then drop 1; return true else return false

def word (w : String) : Reader Unit := do
  if !(← wordIf w) then failure

def anyWord : Reader String := do
  match ← get with
  | .word w :: rest => set rest; return w
  | _ => failure

/-- An identifier that is no keyword. -/
def name : Reader Ident := do
  if ← next beginsName then return ⟨← anyWord⟩ else failure

def lifetime : Reader String := do
  if ← next beginsLifetime then drop 1; anyWord else failure

def lifetimeIf : Reader (Option String) := do
  if ← next beginsLifetime then return some (← lifetime) else return none

/-- A literal, or a number with its sign. -/
def literal : Reader Expr := do
  if !(← next beginsLiteral) then failure
  match ← get with
  | .literal l :: rest => set rest; return .literal l
  | .mark _ _ :: .literal l :: rest => set rest; return .literal ("-" ++ l)
  | .word w :: rest => set rest; return .literal w
  | _ => failure

/-- A group with its tokens as they are. -/
def group : Reader (Delimiter × List Token) := do
  match ← get with
  | .group d inner :: rest => set rest; return (d, inner)
  | _ => failure

/-! ## Combinations -/

/-- Reads all of the tokens of a group. -/
def within (d : Delimiter) (r : Reader α) : Reader α := do
  let (d', inner) ← group
  if d != d' then failure
  match r inner with
  | some (a, []) => return a
  | _ => failure

/-- What a reader reads, and the tokens that it takes. -/
def withTokens (r : Reader α) : Reader (α × List Token) := do
  let before ← get
  let a ← r
  return (a, before.take (before.length - (← get).length))

/-- Things with a mark between them, of which there is at least one, and whether a mark follows the
last. Behind a mark, `goesOn` decides whether another one follows. -/
def separated (mark : String) (goesOn : List Token → Bool) (item : Reader α) :
    Reader (List α × Bool) := do
  loop (← get).length
where
  loop : Nat → Reader (List α × Bool)
    | 0 => failure
    | fuel + 1 => do
      let a ← item
      if !(← operatorIf mark) then return ([a], false)
      if !(← next goesOn) then return ([a], true)
      let (rest, trailing) ← loop fuel
      return (a :: rest, trailing)

/-- Things with commas between them up to where `stops` holds. -/
def list (stops : List Token → Bool) (item : Reader α) : Reader (List α × Bool) := do
  if ← next stops then return ([], false)
  separated "," (!stops ·) item

/-- Things with commas between them up to the end of the tokens. -/
def wholeList (item : Reader α) : Reader (List α × Bool) :=
  list List.isEmpty item

/-- Takes step after step as long as there is one, each of which takes a token. -/
def iterate (step : α → Reader (Option α)) (a : α) : Reader α := do
  loop ((← get).length + 1) a
where
  loop : Nat → α → Reader α
    | 0, _ => failure
    | fuel + 1, a => do
      match ← step a with
      | none => return a
      | some b => loop fuel b

/-- Things without anything between them. -/
def many (item : Reader (Option α)) : Reader (List α) := do
  let found ← iterate (fun found => do return (← item).map (· :: found)) []
  return found.reverse

end Reader

/-- Where a bound stands decides what it may be. -/
structure BoundRules where
  /-- The parameters of an opaque type may be listed. -/
  capturing : Bool := false
  /-- Traits may be constant. -/
  constant : Bool := false

/-- The readers of the kinds of syntax that hold each other. -/
structure Grammar where
  /-- A type; with `plus`, several bounds may follow each other. -/
  type : (plus : Bool) → Reader Ty
  /-- A path in a type. -/
  typePath : Reader Path
  bound : BoundRules → Reader Bound
  /-- An expression; with `braces`, braces behind a path belong to it. -/
  expr : (braces : Bool) → Reader Expr
  /-- An expression with the operators that stand before or right behind it. -/
  operand : (braces : Bool) → Reader Expr
  /-- What becomes of an expression by the operators behind it that bind at least so strongly. -/
  extended : (braces : Bool) → Strength → Expr → Reader Expr
  /-- An expression that ends as soon as it can stand alone. -/
  early : Reader Expr
  /-- A pattern without alternatives. -/
  pattern : Reader Pattern
  statements : Reader (List Statement)
  /-- An item with its attributes. -/
  item : Reader Assembly

namespace Grammar

/-- Refuses everything. -/
def nothing : Grammar where
  type _ := failure
  typePath := failure
  bound _ := failure
  expr _ := failure
  operand _ := failure
  extended _ _ _ := failure
  early := failure
  pattern := failure
  statements := failure
  item := failure

/-- An expression where nothing else has a claim to braces. -/
def value (g : Grammar) : Reader Expr :=
  g.expr true

/-- Statements in braces. -/
def body (g : Grammar) : Reader (List Statement) :=
  Reader.within .brace g.statements

end Grammar

end SchemaBindings.Code
