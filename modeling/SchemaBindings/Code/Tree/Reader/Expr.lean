import SchemaBindings.Code.Tree.Reader.Pattern

/-!
Reading expressions. Operators are read by their strength: an operand takes the operators behind it
that bind more strongly than the one before it.
-/

namespace SchemaBindings.Code.Reader

/-! ## Kinds of expressions -/

/-- The expression with attributes, which do not last where nothing is known. -/
def Expr.marked (marks : Marks) (e : Expr) : Expr :=
  match e with
  | .verbatim tokens => .verbatim tokens
  | e => if marks.isEmpty then e else .marked marks e

def Expr.isRange (e : Expr) : Bool :=
  match e.unmarked with
  | .bare .fullRange | .unary .rangeFrom _ | .unary (.rangeTo _) _ | .binary (.range _) _ _ => true
  | _ => false

def Expr.isComparison (e : Expr) : Bool :=
  match e.unmarked with
  | .binary (.operator (.comparison _)) _ _ => true
  | _ => false

/-! ## What tokens begin with -/

/-- The operator that tokens begin with, a plain assignment included. -/
def operator? (ts : List Token) : Option BinaryOperator :=
  (BinaryOperator.all.find? fun o => beginsOperator o.text ts).orElse fun _ =>
    if beginsEquals ts then some (.assign none) else none

/-- How strongly the operator binds that tokens begin with. -/
def strengthOf (ts : List Token) : Strength :=
  match operator? ts with
  | some o => o.strength
  | none =>
    if beginsOperator ".." ts then .range else if beginsWord "as" ts then .cast else .weakest

/-- An operator before its operand that is not joined with an equals sign. -/
def beginsOperand (mark : String) (ts : List Token) : Bool :=
  beginsOperator mark ts && !beginsOperator (mark ++ "=") ts

/-- Whether an expression may follow a word that can also stand alone. -/
def beginsExpr (ts : List Token) : Bool :=
  beginsAnyWord ts && !beginsWord "as" ts || beginsGroup .paren ts || beginsGroup .bracket ts ||
    beginsGroup .brace ts || beginsLiteral ts || ["!", "*", "|", "&"].any (beginsOperand · ts) ||
    beginsOperand "-" ts && !beginsOperator "->" ts ||
    beginsOperand "<" ts && !beginsOperator "<<=" ts || beginsOperator ".." ts ||
    beginsOperator "::" ts || beginsLifetime ts || beginsOperator "#" ts

/-- Whether a range with a beginning ends here. -/
def endsRange (braces : Bool) (ts : List Token) : Bool :=
  ts.isEmpty || beginsDot ts || beginsWord "as" ts || !braces && beginsGroup .brace ts ||
    [",", ";", "?", "=>", "=", "+", "/", "%", "^", ">", "<=", "!=", "-=", "*=", "&=", "|=",
      "<<="].any (beginsOperator · ts)

def beginsClosure (ts : List Token) : Bool :=
  let behind := behindFirst ts
  beginsOperator "|" ts || beginsWord "move" ts || beginsWord "static" ts ||
    beginsWord "const" ts && !beginsGroup .brace behind ||
    beginsWord "async" ts && (beginsOperator "|" behind || beginsWord "move" behind) ||
    beginsWord "for" ts && beginsGenericParams behind

/-- Whether a body of statements follows that may be suspended. -/
def beginsSuspending (ts : List Token) : Bool :=
  let behind := behindFirst ts
  beginsWord "async" ts &&
    (beginsGroup .brace behind ||
      beginsWord "move" behind && beginsGroup .brace (behindFirst behind))

variable (g : Grammar)

/-! ## Operators -/

/-- The right operand of an operator, with what binds more strongly; an assignment also takes other
assignments. -/
def rightOperand (braces : Bool) (strength : Strength) : Reader Expr := do
  iterate step (← g.operand braces)
where
  step (e : Expr) : Reader (Option Expr) := do
    let before ← get
    let ahead := strengthOf before
    if strength.rank < ahead.rank || (ahead = strength ∧ strength = .assign) then
      let extended ← g.extended braces ahead e
      if (← get).length = before.length then return none
      return some extended
    return none

/-- What follows the operator of a range. -/
def rangeStop (braces isClosed : Bool) : Reader (Option Expr) := do
  if !isClosed && (← next (endsRange braces)) then return none
  return some (← rightOperand g braces .range)

/-- A cast is not followed by anything that could belong to its type. -/
def castTo (e : Expr) : Reader Expr := do
  let type ← g.type false
  let ts ← get
  if beginsDot ts || beginsOperator "?" ts || beginsGroup .bracket ts || beginsGroup .paren ts then
    failure
  return .cast e type

/-- What becomes of an expression by the next operator, if one follows that binds so strongly. A
range is no left operand, and a comparison is none of another comparison. -/
def operatorStep (braces : Bool) (base : Strength) (e : Expr) : Reader (Option Expr) := do
  let ts ← get
  if Expr.isRange e || (strengthOf ts).rank < base.rank then return none
  match operator? ts with
  | some o =>
    if o.strength = .comparison ∧ Expr.isComparison e then failure
    drop o.text.length
    return some (.binary (.operator o) e (← rightOperand g braces o.strength))
  | none =>
    if beginsOperator ".." ts then
      let isClosed ← rangeLimits false
      match ← rangeStop g braces isClosed with
      | some stop => return some (.binary (.range isClosed) e stop)
      | none => return some (.unary .rangeFrom e)
    else if ← wordIf "as" then return some (← castTo g e)
    else return none

def extended (braces : Bool) (base : Strength) (e : Expr) : Reader Expr :=
  iterate (operatorStep g braces base) e

/-! ## Behind an expression -/

def args : Reader (List Expr × Bool) :=
  within .paren (wholeList g.value)

/-- The fields whose places are joined by dots. -/
def placesOf (e : Expr) (places : List String) : Reader Expr :=
  places.foldlM (fun e p => match placeOf? p with
    | some place => return .unary (.field place) e
    | none => failure) e

/-- What follows a dot: a field, the call of a function, or `await`. -/
def behindDot (e : Expr) : Reader Expr := do
  if ← wordIf "await" then return .awaited e
  let m ← member
  let typeArgs ← if isNamed m && (← next (beginsOperator "::")) then angleArgs g else pure .none
  let isCall := match typeArgs with
    | .none => false
    | _ => true
  if isNamed m && (isCall || (← next (beginsGroup .paren))) then
    let (found, trailing) ← args g
    return .methodCall e ⟨m⟩ typeArgs found trailing
  return .unary (.field m) e

/-- What follows a dot, which may be several places that have been read as one number. -/
def dotted (e : Expr) : Reader Expr := do
  match ← get with
  | .literal l :: rest =>
    if isNumber l && l.toList.contains '.' then
      set rest
      let places := l.splitOn "."
      let e ← placesOf e (places.filter (!·.isEmpty))
      if l.endsWith "." then behindDot g e else return e
    else behindDot g e
  | _ => behindDot g e

def trailerStep (e : Expr) : Reader (Option Expr) := do
  let ts ← get
  if beginsGroup .paren ts then
    let (found, trailing) ← args g
    return some (.call e found trailing)
  else if Expr.isRange e then return none
  else if beginsDot ts then
    drop 1
    return some (← dotted g e)
  else if beginsGroup .bracket ts then
    return some (.binary .index e (← within .bracket g.value))
  else if ← operatorIf "?" then return some (.propagated e)
  else return none

/-- Calls, fields and the like behind an expression. -/
def withTrailers (e : Expr) : Reader Expr :=
  iterate (trailerStep g) e

/-! ## Expressions with lists in them -/

def parenthesizedExpr : Reader Expr := do
  let (found, trailing) ← within .paren (wholeList g.value)
  match found, trailing with
  | [e], false => return .unary .paren e
  | _, _ => return .list .tuple found trailing

def sequenceExpr : Reader Expr :=
  within .bracket do
    let (found, trailing) ← wholeList g.value
    match found with
    | [e] =>
      if !trailing && (← operatorIf ";") then return .binary .repetition e (← g.value)
      return .list .array found trailing
    | _ => return .list .array found trailing

/-- The value of a field, which its name alone stands for too. -/
def fieldEntry : Reader Expr := do
  let marks ← marks g
  let m ← member
  if (← next (beginsOperator ":")) || !isNamed m then
    operator ":"
    return .entry marks m (some (← g.value))
  return .entry marks m none

/-- Entries, in reverse, whether a comma follows the last, and what stands behind the dots if there
are some. -/
abbrev Entries := List Expr × Bool × Option (Option Expr)

def moreEntries : Entries → Reader (Option Entries)
  | (found, trailing, none) => do
    if ← isAtEnd then return none
    if !found.isEmpty && !trailing then failure
    if ← operatorIf ".." then
      let rest ← if ← isAtEnd then pure none else some <$> g.value
      return some (found, trailing, some rest)
    let entry ← fieldEntry g
    return some (entry :: found, ← operatorIf ",", none)
  | (_, _, some _) => return none

/-- A path, or the macro or structure that begins with it. -/
def pathOrMore (braces : Bool) : Reader Expr := do
  let p ← qualifiedPath g true
  if let some e ← macroIf p then return e
  let head := pathExpr p
  if !braces || !(← next (beginsGroup .brace)) then return head
  let (found, trailing, rest) ← within .brace (iterate (moreEntries g) ([], false, none))
  return .structure head found.reverse trailing rest.isSome (rest.getD none)

/-! ## Closures -/

def closureParam : Reader Pattern := do
  let marks ← marks g
  let p ← g.pattern
  let p ← if ← operatorIf ":" then Pattern.typed p <$> g.type true else pure p
  return if marks.isEmpty then p else .marked marks p

def closure (braces : Bool) : Reader Expr := do
  let quantifier ← quantifierIf g
  let words ← ["const", "static", "async", "move"].filterM wordIf
  operator "|"
  let (params, trailing) ← list (beginsOperator "|") (closureParam g)
  operator "|"
  let result ← output g true
  let body ← if result.isSome then Expr.block none [] <$> g.body else g.expr braces
  return .closure quantifier words params trailing result body

/-! ## Control -/

/-- An expression in front of braces that do not belong to it. -/
def condition : Reader Expr :=
  g.expr false

/-- A jump with its label and, where one is allowed, its value. -/
def jump (braces : Bool) (w : String) : Reader Expr := do
  word w
  let label ← if w == "break" || w == "continue" then lifetimeIf else pure none
  let ts ← get
  if label.isSome && w == "break" && beginsOperator ":" ts then failure
  let hasValue := w != "continue" && beginsExpr ts &&
    (w != "break" || braces || !beginsGroup .brace ts)
  if hasValue then return .unary (.jump w label) (← g.value)
  return .bare (.jump w label)

/-- A condition and the body that belongs to it. -/
def clause : Reader (Expr × List Statement) := do
  word "if"
  let c ← condition g
  return (c, ← g.body)

def conditional : Reader Expr := do
  let (c, body) ← clause g
  let others ← many do
    let ts ← get
    if !beginsWord "else" ts || !beginsWord "if" (ts.drop 1) then return none
    drop 1
    some <$> clause g
  let final ← if ← wordIf "else" then some <$> Expr.block none [] <$> g.body else pure none
  let otherwise := others.foldr (fun (c, body) rest => some (.conditional c body rest)) final
  return .conditional c body otherwise

/-- A loop or, with a label, a body. -/
def labelled (label : Option String) : Reader Expr := do
  if ← wordIf "while" then
    let c ← condition g
    return .whileLoop label c (← markedBody g)
  if ← wordIf "for" then
    let p ← alternatives g
    word "in"
    let source ← condition g
    return .forLoop label p source (← markedBody g)
  if ← wordIf "loop" then return .block label ["loop"] (← markedBody g)
  return .block label [] (← markedBody g)

def label : Reader Expr := do
  let l ← lifetime
  operator ":"
  labelled g (some l)

/-- The form that a value is tested for. -/
def formTest (braces : Bool) : Reader Expr := do
  word "let"
  let p ← alternatives g
  operator "="
  return .test p (← g.extended braces .comparison (← g.operand braces))

/-- A body with a word in front of it. -/
def wordedBody (w : String) : Reader Expr := do
  word w
  return .block none [w] (← if w == "try" then g.body else markedBody g)

/-- A case; behind a value that could go on, a comma ends it. -/
def arm : Reader Expr := do
  let marks ← marks g
  let p ← alternatives g
  let guard ← if ← wordIf "if" then some <$> g.value else pure none
  operator "=>"
  let body ← g.early
  let comma ← operatorIf ","
  if !comma && !body.endsStatement && !(← isAtEnd) then failure
  return .arm marks p guard body comma

/-- A choice between cases. -/
def choice : Reader Expr := do
  word "match"
  let e ← condition g
  let (inner, arms) ← within .brace do
    let inner ← innerMarks g
    let arms ← many do
      if ← isAtEnd then return none
      some <$> arm g
    return (inner, arms)
  return .choice e inner arms

/-! ## Expressions -/

/-- Whether an expression begins here of which nothing is known. -/
def beginsUnknown (ts : List Token) : Bool :=
  beginsWord "become" ts || beginsWord "builtin" ts && beginsOperator "#" (behindFirst ts)

/-- An expression of which nothing is known: a last call, or one that the language has built in. -/
def unknown : Reader Expr := do
  let (_, tokens) ← withTokens do
    if ← wordIf "become" then
      let _ ← g.value
    else
      word "builtin"
      operator "#"
      let _ ← name
      let (d, _) ← group
      if d != .paren then failure
  return .verbatim tokens

/-- An expression that no operator and no trailer belongs to. -/
def atom (braces : Bool) : Reader Expr := do
  let ts ← get
  let behind := behindFirst ts
  if beginsLiteral ts then literal
  else if beginsSuspending ts then do
    drop 1
    let moves ← wordIf "move"
    return .block none (if moves then ["async", "move"] else ["async"]) (← g.body)
  else if beginsWord "try" ts && beginsGroup .brace behind then wordedBody g "try"
  else if beginsClosure ts then closure g braces
  else if beginsUnknown ts then unknown g
  else if beginsPath ts ||
      beginsWord "try" ts && (beginsOperator "!" behind || beginsOperator "::" behind) then
    pathOrMore g braces
  else if beginsGroup .paren ts then parenthesizedExpr g
  else if beginsGroup .bracket ts then sequenceExpr g
  else if beginsWord "let" ts then formTest g braces
  else if beginsWord "if" ts then conditional g
  else if ["while", "for", "loop"].any (beginsWord · ts) || beginsGroup .brace ts then
    labelled g none
  else if beginsWord "match" ts then choice g
  else if beginsWord "unsafe" ts then wordedBody g "unsafe"
  else if beginsWord "const" ts then wordedBody g "const"
  else if beginsOperator ".." ts then do
    let isClosed ← rangeLimits false
    match ← rangeStop g braces isClosed with
    | some stop => return .unary (.rangeTo isClosed) stop
    | none => return .bare .fullRange
  else if beginsWord "_" ts then do drop 1; return .bare .infer
  else if beginsLifetime ts then label g
  else
    match ["break", "continue", "return", "yield"].find? (beginsWord · ts) with
    | some w => jump g braces w
    | none => failure

/-- What a reference or an address is taken as, after its mark. -/
def borrow : Reader Borrow := do
  let ts ← get
  let behind := behindFirst ts
  if beginsWord "raw" ts && (beginsWord "mut" behind || beginsWord "const" behind) then
    drop 1
    if ← wordIf "mut" then return .rawMutable
    word "const"
    return .rawConst
  return if ← wordIf "mut" then .mutable else .shared

/-- An expression with the operators before it, and with what belongs to it behind it. -/
def operand (braces : Bool) : Reader Expr := do
  let before ← get
  let marks ← marks g
  if ← operatorIf "&" then
    let kind ← borrow
    return Expr.marked marks (.unary (.borrow kind) (← g.operand braces))
  let ts ← get
  match ['*', '!', '-'].find? fun c => beginsOperator (String.singleton c) ts with
  | some c =>
    drop 1
    return Expr.marked marks (.unary (.operator c) (← g.operand braces))
  | none =>
    let e ← withTrailers g (← atom g braces)
    if !marks.isEmpty && Expr.isRange e then failure
    match e with
    | .verbatim _ => return .verbatim (before.take (before.length - (← get).length))
    | e => return Expr.marked marks e

def expr (braces : Bool) : Reader Expr := do
  g.extended braces .weakest (← operand g braces)

/-- What an expression begins with when it ends as soon as it can. -/
def earlyStart : Reader Expr := do
  let ts ← get
  let behind := behindFirst ts
  if beginsWord "if" ts then conditional g
  else if ["while", "loop"].any (beginsWord · ts) || beginsGroup .brace ts ||
      beginsWord "for" ts && !beginsGenericParams behind then labelled g none
  else if beginsWord "match" ts then choice g
  else if beginsWord "unsafe" ts then wordedBody g "unsafe"
  else
    match ["try", "const"].find? fun w => beginsWord w ts && beginsGroup .brace behind with
    | some w => wordedBody g w
    | none => if beginsLifetime ts then label g else operand g true

/-- An expression that ends as soon as it can stand alone, unless a dot goes on with it. -/
def early : Reader Expr := do
  let marks ← marks g
  let e ← earlyStart g
  if !e.endsStatement then return ← g.extended true .weakest (Expr.marked marks e)
  let ts ← get
  if beginsDot ts || beginsOperator "?" ts then
    return ← g.extended true .weakest (Expr.marked marks (← withTrailers g e))
  return Expr.marked marks e

end SchemaBindings.Code.Reader
