import SchemaBindings.Code.Tree.Reader.Path

/-!
Reading patterns.
-/

namespace SchemaBindings.Code.Reader

variable (g : Grammar)

/-! ## Parts that expressions have too -/

/-- The expression that a path is, into an implementation or not. -/
def pathExpr : Option (Ty × Nat) × Path → Expr
  | (some (self, position), p) => .qualified self position p
  | (none, p) => .path p

/-- The macro that a path is called as, if it is. -/
def macroIf (p : Option (Ty × Nat) × Path) : Reader (Option Expr) := do
  if p.1.isSome || !(← next beginsBang) || !p.2.isPlain then return none
  drop 1
  let (delimiter, inner) ← group
  return some (.macroCall p.2 delimiter inner)

/-- A constant body, after its word. -/
def constantBody : Reader Expr := do
  word "const"
  return .block none ["const"] (← markedBody g)

/-- The place of a field: a number without anything behind it. Its digits are shown without those
that do not matter. -/
def placeOf? (literal : String) : Option String := do
  let n ← match literal.toList with
    | '0' :: 'x' :: digits => number? 16 digits
    | '0' :: 'o' :: digits => number? 8 digits
    | '0' :: 'b' :: digits => number? 2 digits
    | digits => number? 10 digits
  if n < 4294967296 then some (toString n) else none
where
  number? (base : Nat) (digits : List Char) : Option Nat :=
    (digits.filter (· != '_')).foldlM (fun n c => do
      let d ← Lexer.hexDigit? c
      if d < base then some (n * base + d) else none) 0

/-- The name or the place of a field. -/
def member : Reader String := do
  match ← get with
  | .literal l :: rest =>
    if !isNumber l then failure
    match placeOf? l with
    | some place => set rest; return place
    | none => failure
  | _ => return (← name).text

/-- Whether a field is given by its name. -/
def isNamed (member : String) : Bool :=
  !isNumber member

/-- The operator of a range, and whether the range holds its end. -/
def rangeLimits (allowsDots : Bool) : Reader Bool := do
  if ← operatorIf "..=" then return true
  if ← next (beginsOperator "...") then
    if allowsDots then drop 3; return true else failure
  operator ".."
  return false

/-! ## Ranges -/

/-- Where a pattern ends, so that a range in it has no end of its own. -/
def endsRangePattern (ts : List Token) : Bool :=
  ts.isEmpty || beginsOperator "|" ts || beginsOperator "=" ts ||
    beginsOperator ":" ts && !beginsOperator "::" ts || beginsOperator "," ts ||
    beginsOperator ";" ts || beginsWord "if" ts

/-- One end of a range: a literal, a path or a constant body. -/
def rangeEnd : Reader Expr := do
  let ts ← get
  if beginsLiteral ts then literal
  else if beginsPath ts then return pathExpr (← qualifiedPath g true)
  else constantBody g

def rangeEndIf : Reader (Option Expr) := do
  if ← next endsRangePattern then return none
  return some (← rangeEnd g)

/-- The range that begins with an expression, or that expression alone. -/
def rangeFrom (start : Expr) : Reader Pattern := do
  if !(← next (beginsOperator "..")) then return .value start
  let isClosed ← rangeLimits true
  match ← rangeEndIf g, isClosed with
  | some stop, isClosed => return .value (.binary (.range isClosed) start stop)
  | none, false => return .value (.unary .rangeFrom start)
  | none, true => failure

/-- The range that begins anywhere, or the dots that stand for any number of patterns. -/
def rangeTo : Reader Pattern := do
  let isClosed ← rangeLimits false
  match ← rangeEndIf g, isClosed with
  | some stop, isClosed => return .value (.unary (.rangeTo isClosed) stop)
  | none, false => return .dots
  | none, true => failure

/-- Whether a range lacks one of its ends. -/
def isHalfOpen : Pattern → Bool
  | .value (.unary .rangeFrom _) | .value (.unary (.rangeTo _) _) => true
  | _ => false

/-! ## Patterns with parts -/

/-- A pattern that may have alternatives, with a bar before the first or without. -/
def alternatives : Reader Pattern := do
  let leading ← operatorIf "|"
  let first ← g.pattern
  let others ← many do
    let ts ← get
    if !beginsOperator "|" ts || beginsOperator "||" ts || beginsOperator "|=" ts then return none
    drop 1
    some <$> g.pattern
  if leading || !others.isEmpty then return .alternatives leading (first :: others)
  return first

/-- The form of a field of a structure. Of one behind the word `box` nothing is known. -/
def fieldPattern (marks : Marks) : Reader Pattern := do
  let before ← get
  let isBoxed ← wordIf "box"
  let isRef ← wordIf "ref"
  let isMut ← wordIf "mut"
  let isVariable := isBoxed || isRef || isMut
  let m ← if isVariable then Ident.text <$> name else member
  if !isVariable && ((← next (beginsOperator ":")) || !isNamed m) then
    operator ":"
    return .entry marks (some m) (← alternatives g)
  if isBoxed then
    return .entry marks none (.verbatim (before.take (before.length - (← get).length)))
  return .entry marks none (.variable isRef isMut ⟨m⟩)

/-- Fields, in reverse, whether a comma follows the last, and the attributes of the dots that stand
for all others. -/
abbrev FieldPatterns := List Pattern × Bool × Option Marks

def moreFieldPatterns : FieldPatterns → Reader (Option FieldPatterns)
  | (found, trailing, none) => do
    if ← isAtEnd then return none
    if !found.isEmpty && !trailing then failure
    let marks ← marks g
    if ← operatorIf ".." then return some (found, trailing, some marks)
    let field ← fieldPattern g marks
    return some (field :: found, ← operatorIf ",", none)
  | (_, _, some _) => return none

/-- A macro, a structure, a variant, a range or a plain path. -/
def pathPattern : Reader Pattern := do
  let p ← qualifiedPath g true
  if let some e ← macroIf p then return .value e
  let head := pathExpr p
  let ts ← get
  if beginsGroup .brace ts then
    let (found, trailing, rest) ← within .brace (iterate (moreFieldPatterns g) ([], false, none))
    return .structure head found.reverse trailing rest
  if beginsGroup .paren ts then
    let (found, trailing) ← within .paren (wholeList (alternatives g))
    return .variant head found trailing
  rangeFrom g head

/-- A variable, and the form that its value has. -/
def variablePattern : Reader Pattern := do
  let isRef ← wordIf "ref"
  let isMut ← wordIf "mut"
  let name ← if ← next (beginsWord "self") then Ident.mk <$> anyWord else name
  let whole := Pattern.variable isRef isMut name
  if ← operatorIf "@" then return .alias whole (← g.pattern)
  return whole

def parenthesizedPattern : Reader Pattern := do
  let (found, trailing) ← within .paren (wholeList (alternatives g))
  match found, trailing with
  | [.dots], false => return .tuple found false
  | [p], false => return .paren p
  | _, _ => return .tuple found trailing

/-- Whether more than a name belongs to the path that begins here. -/
def beginsPathPattern (ts : List Token) : Bool :=
  let behind := behindFirst ts
  beginsName ts && (beginsOperator "::" behind || beginsOperator "!" behind ||
      beginsGroup .brace behind || beginsGroup .paren behind || beginsOperator ".." behind) ||
    beginsWord "self" ts && beginsOperator "::" behind ||
    beginsOperator "::" ts || beginsOperator "<" ts ||
    ["Self", "super", "crate"].any (beginsWord · ts)

/-- A pattern without alternatives. Of one behind the word `box` nothing is known. -/
def pattern : Reader Pattern := do
  let ts ← get
  if beginsPathPattern ts then pathPattern g
  else if beginsWord "_" ts then do drop 1; return .wildcard
  else if beginsWord "box" ts then do
    let (_, tokens) ← withTokens (word "box" *> g.pattern)
    return .verbatim tokens
  else if beginsOperator "-" ts || beginsLiteral ts || beginsWord "const" ts then do
    rangeFrom g (← rangeEnd g)
  else if ["ref", "mut", "self"].any (beginsWord · ts) || beginsName ts then variablePattern g
  else if beginsOperator "&" ts then do
    drop 1
    return .reference (← wordIf "mut") (← g.pattern)
  else if beginsGroup .paren ts then parenthesizedPattern g
  else if beginsGroup .bracket ts then do
    let (found, trailing) ← within .bracket (wholeList (alternatives g))
    if found.any isHalfOpen then failure
    return .slice found trailing
  else if beginsOperator ".." ts && !beginsOperator "..." ts then rangeTo g
  else failure

end SchemaBindings.Code.Reader
