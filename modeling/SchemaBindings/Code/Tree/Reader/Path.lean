import SchemaBindings.Code.Tree.Reader.Basic

/-!
Reading attributes, paths with their arguments, and bounds.
-/

namespace SchemaBindings.Code.Reader

/-! ## Plain paths -/

/-- The words that plain paths may have although they are keywords. -/
def plainPathWords : List String := ["super", "self", "Self", "crate"]

def beginsPlainPathWord (ts : List Token) : Bool :=
  beginsName ts || plainPathWords.any (beginsWord · ts)

/-- Whether a path begins here that can stand for a type or a value. -/
def beginsPath (ts : List Token) : Bool :=
  beginsPlainPathWord ts || beginsOperator "::" ts || beginsOperator "<" ts

/-- A path without any arguments, as a macro is named. -/
def plainPath : Reader Path := do
  let leading ← operatorIf "::"
  let word : Reader Segment := do
    if ← next beginsPlainPathWord then return .mk ⟨← anyWord⟩ .none else failure
  let (segments, trailing) ← separated "::" beginsPlainPathWord word
  if trailing then failure
  return .mk leading segments

variable (g : Grammar)

/-! ## Attributes -/

/-- A value in an attribute, unless it is a literal and nothing else. -/
def markValue : Reader (Option Expr) := do
  let ts ← get
  if let some (_, []) := literal ts then
    set ([] : List Token)
    return none
  if beginsOperator "#" ts then failure
  return some (← g.value)

/-- What stands between the brackets of an attribute. -/
def meaning : Reader Mark := do
  let ts ← get
  if !(← wordIf "unsafe") then
    let _ ← plainPath
  let behind ← get
  if beginsEquals behind then
    operator "="
    match ← markValue g with
    | some value => return .mk (ts.take (ts.length - behind.length)) (some value)
    | none => return .mk ts none
  match behind with
  | .group .. :: rest => set rest
  | _ => pure ()
  return .mk ts none

/-- Attributes in front of what they are about. -/
def marks : Reader Marks :=
  many do
    if !(← operatorIf "#") then return none
    some <$> within .bracket (meaning g)

/-- Attributes of what encloses them. -/
def innerMarks : Reader Marks :=
  many do
    let ts ← get
    if !(beginsOperator "#" ts && beginsOperator "!" (ts.drop 1)) then return none
    drop 2
    some <$> within .bracket (meaning g)

/-- Statements in braces, with attributes of what they are the body of. -/
def markedBody : Reader (List Statement) :=
  within .brace do
    let inner ← innerMarks g
    return inner.map .innerMark ++ (← g.statements)

/-! ## Arguments -/

/-- A literal, a name or a body as an argument. -/
def constant : Reader Expr := do
  if ← next beginsLiteral then literal
  else if ← next beginsName then return .path (.mk false [.mk (← name) .none])
  else return .block none [] (← markedBody g)

/-- The type behind an arrow. -/
def output (plus : Bool) : Reader (Option Ty) := do
  if ← operatorIf "->" then return some (← g.type plus) else return none

/-- The parameter and result types of a callable trait. -/
def callable : Reader PathArgs := do
  let (inputs, trailing) ← within .paren (wholeList (g.type true))
  return .callable inputs trailing (← output g false)

/-! ## Parameters -/

/-- Where the arguments between angle brackets end, or one of them does. -/
def endsArgument (ts : List Token) : Bool :=
  ts.isEmpty || beginsOperator "," ts || beginsOperator ">" ts

/-- Things with plus signs between them up to where `stops` holds, if there are any. -/
def sum (stops : List Token → Bool) (item : Reader α) : Reader (List α × Bool) := do
  if ← next stops then return ([], false)
  separated "+" (!stops ·) item

/-- Behind a colon, things with plus signs between them. -/
def annotation (stops : List Token → Bool) (item : Reader α) : Reader (List α × Bool) := do
  if ← operatorIf ":" then sum stops item else return ([], false)

/-- What stands behind an equals sign. -/
def preset (value : Reader α) : Reader (Option α) := do
  if ← operatorIf "=" then return some (← value) else return none

/-- A parameter after `for`. -/
def genericParam : Reader GenericParam := do
  let marks ← marks g
  if ← next beginsName then
    let ident ← name
    let stops (ts : List Token) := endsArgument ts || beginsOperator "=" ts
    let (bounds, trailing) ← annotation stops (g.bound { constant := true })
    return .type marks ident bounds trailing (← preset (g.type true))
  if let some l ← lifetimeIf then
    let (bounds, trailing) ← annotation endsArgument lifetime
    return .lifetime marks l bounds trailing
  word "const"
  let ident ← name
  operator ":"
  let type ← g.type true
  return .const marks ident type (← preset (constant g))

/-- Whether parameters begin here, and not the type that a path leads into. -/
def beginsGenericParams (ts : List Token) : Bool :=
  let first := ts.drop 1
  let behind := behindFirst first
  let endsParam := [">", ",", "="].any (beginsOperator · behind) ||
    beginsOperator ":" behind && !beginsOperator "::" behind
  beginsOperator "<" ts && (beginsOperator ">" first || beginsOperator "#" first ||
    (beginsLifetime first || beginsName first) && endsParam || beginsWord "const" first)

def quantifierIf : Reader Quantifier := do
  if !(← wordIf "for") then return .none
  operator "<"
  let (params, trailing) ← list (beginsOperator ">") (genericParam g)
  operator ">"
  return .forAll params trailing

/-! ## Bounds -/

/-- The parameters of an opaque type, after `use`. -/
def captures : Reader Bound := do
  operator "<"
  let param : Reader Captured := do
    if let some l ← lifetimeIf then return ⟨true, l⟩
    if (← next beginsName) || (← next (beginsWord "Self")) then return ⟨false, ← anyWord⟩
    failure
  let (params, trailing) ← list (beginsOperator ">") param
  operator ">"
  return .captures params trailing

/-- Whether parentheses behind a segment hold the inputs of a callable trait. -/
def Segment.takesInputs : Segment → Bool
  | .mk _ .none => true
  | .mk _ (.angle _ args _) => args.isEmpty
  | .mk _ (.callable ..) => false

/-- The path of a trait. -/
def traitPath : Reader Path := do
  let .mk leading segments ← g.typePath
  match segments.getLast? with
  | none => failure
  | some last =>
    let hasInputs (ts : List Token) :=
      beginsGroup .paren ts || beginsDoubleColon (beginsGroup .paren) ts
    if Segment.takesInputs last && (← next hasInputs) then
      let _ ← operatorIf "::"
      return .mk leading (segments.dropLast ++ [.mk last.ident (← callable g)])
    return .mk leading segments

/-- Whether the word `const` stands here, with or without brackets. -/
def constMark : Reader Bool := do
  if ← next (beginsGroup .bracket) then
    within .bracket (word "const")
    return true
  wordIf "const"

/-- The bound that a trait is. Of a constant one nothing is known. -/
def traitBound (rules : BoundRules) (inParens : Bool) : Reader (Option Bound) := do
  let before ← quantifierIf g
  let isConst ← constMark
  if isConst && !rules.constant then failure
  let isMaybe ← operatorIf "?"
  let after ← match before with
    | .none => if isMaybe then quantifierIf g else pure .none
    | _ => pure before
  let path ← traitPath g
  match after with
  | .forAll .. => if isMaybe then failure
  | .none => pure ()
  return if isConst then none else some (.trait inParens isMaybe after path)

def bound (rules : BoundRules) : Reader Bound := do
  if let some l ← lifetimeIf then return .lifetime l
  if ← wordIf "use" then
    let b ← captures
    if rules.capturing then return b else failure
  let inParens ← next (beginsGroup .paren)
  let read := traitBound g rules inParens
  let (found, tokens) ← withTokens (if inParens then within .paren read else read)
  return found.getD (.verbatim tokens)

/-- Whether a bound may begin here. -/
def beginsBound (rules : BoundRules) (ts : List Token) : Bool :=
  beginsAnyWord ts || beginsOperator "::" ts || beginsOperator "?" ts || beginsLifetime ts ||
    beginsGroup .paren ts || (rules.constant && beginsGroup .bracket ts)

/-! ## Paths -/

/-- An argument that begins with a single name: a type, or a statement about an associated item. -/
def namedArg (ident : Ident) (args : PathArgs) (type : Ty) : Reader GenericArg := do
  if ← operatorIf "=" then
    if (← next beginsLiteral) || (← next (beginsGroup .brace)) then
      return .assocConst ident args (← constant g)
    return .assocType ident args (← g.type true)
  if ← operatorIf ":" then
    let (bounds, trailing) ← sum endsArgument (bound g { constant := true })
    return .constraint ident args bounds trailing
  return .type type

def genericArg : Reader GenericArg := do
  let ts ← get
  if beginsLifetime ts && !beginsOperator "+" (behindFirst ts) then return .lifetime (← lifetime)
  if beginsLiteral ts || beginsGroup .brace ts then return .const (← constant g)
  let type ← g.type true
  match type with
  | .path (.mk false [.mk ident args]) => namedArg g ident args type
  | _ => return .type type

/-- Arguments between angle brackets. -/
def angleArgs : Reader PathArgs := do
  let turbofish ← operatorIf "::"
  operator "<"
  let (args, trailing) ← list (beginsOperator ">") (genericArg g)
  operator ">"
  return .angle turbofish args trailing

/-- The words that a path may have although they are keywords, and that take no arguments. -/
def argumentlessWords : List String := ["super", "self", "crate", "try"]

/-- A segment; in a value its arguments need `::` before them. -/
def segment (inValue : Bool) : Reader Segment := do
  if argumentlessWords.any (beginsWord · (← get)) then return .mk ⟨← anyWord⟩ .none
  let ident ← if ← next (beginsWord "Self") then Ident.mk <$> anyWord else name
  let takesArgs (ts : List Token) :=
    !inValue && beginsOperator "<" ts && !beginsOperator "<=" ts && !beginsOperator "<<=" ts ||
      beginsDoubleColon (beginsOperator "<") ts
  if ← next takesArgs then return .mk ident (← angleArgs g)
  return .mk ident .none

/-- Segments up to parentheses or to a token that is no `::`. -/
def segments (inValue : Bool) : Reader (List Segment) := do
  let first ← segment g inValue
  let goesOn (ts : List Token) := beginsOperator "::" ts && !beginsGroup .paren (ts.drop 2)
  let others ← many do
    if !(← next goesOn) then return none
    operator "::"
    some <$> segment g inValue
  return first :: others

def path (inValue : Bool) : Reader Path := do
  let leading ← operatorIf "::"
  return .mk leading (← segments g inValue)

/-- A path, or a path into an implementation: its type, the number of segments that name the trait,
and all segments. -/
def qualifiedPath (inValue : Bool) : Reader (Option (Ty × Nat) × Path) := do
  if !(← operatorIf "<") then return (none, ← path g inValue)
  let self ← g.type true
  let .mk leading trait ← if ← wordIf "as" then path g false else pure (.mk false [])
  operator ">"
  operator "::"
  let (rest, _) ← separated "::" (fun _ => true) (segment g inValue)
  return (some (self, trait.length), .mk leading (trait ++ rest))

end SchemaBindings.Code.Reader
