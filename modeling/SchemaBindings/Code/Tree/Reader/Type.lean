import SchemaBindings.Code.Tree.Reader.Path

/-!
Reading types.
-/

namespace SchemaBindings.Code.Reader

variable (g : Grammar)

/-! ## Several bounds -/

/-- Bounds with plus signs between them; with `plus`, several may follow each other. -/
def bounds (rules : BoundRules) (plus : Bool) : Reader (List Bound × Bool) := do
  if plus then separated "+" (beginsBound rules) (bound g rules)
  else return ([← bound g rules], false)

/-- Further bounds behind a first one. -/
def withMoreBounds (first : Bound) (goesOn : List Token → Bool) : Reader Ty := do
  if !(← operatorIf "+") then return .traitObject false [first] false
  if !(← next goesOn) then return .traitObject false [first] true
  let (rest, trailing) ← separated "+" goesOn (bound g {})
  return .traitObject false (first :: rest) trailing

def Bound.isTrait : Bound → Bool
  | .trait .. | .verbatim _ => true
  | .lifetime _ | .captures .. => false

/-- Bounds of which at least one is a trait. -/
def traitBounds (rules : BoundRules) (plus : Bool) : Reader (List Bound × Bool) := do
  let (found, trailing) ← bounds g rules plus
  if found.any Bound.isTrait then return (found, trailing) else failure

/-! ## Parentheses -/

/-- The bound that a type in parentheses is, if plus signs may follow it. -/
def boundInParens? : Ty → Option Bound
  | .path p => some (.trait true false .none p)
  | .traitObject false [.trait _ isMaybe quantifier p] false =>
    some (.trait true isMaybe quantifier p)
  | .traitObject false [b] false => some b
  | _ => none

/-- What parentheses hold: a type, which a comma makes a tuple, or a bound. -/
def inParens : Reader (Ty ⊕ Bound) := do
  let ts ← get
  if ts.isEmpty then return .inl (.tuple [] false)
  if beginsLifetime ts then
    let (found, trailing) ← traitBounds g {} true
    return .inl (.paren (.traitObject false found trailing))
  if beginsOperator "?" ts then
    match ← traitBound g {} true with
    | some b => return .inr b
    | none => failure
  let (types, trailing) ← wholeList (g.type true)
  match types, trailing with
  | [type], false => return .inl (.paren type)
  | _, _ => return .inl (.tuple types trailing)

def parenthesized (plus : Bool) : Reader Ty := do
  match ← within .paren (inParens g) with
  | .inr b => withMoreBounds g b fun _ => true
  | .inl (.paren type) =>
    match boundInParens? type with
    | some b =>
      if plus && (← next (beginsOperator "+")) then withMoreBounds g b fun _ => true
      else return .paren type
    | none => return .paren type
  | .inl type => return type

/-! ## Functions -/

/-- The word before a colon that no other colon follows. -/
def inputNameIf (isName : List Token → Bool) : Reader (Option Ident) := do
  let ts ← get
  let behind := behindFirst ts
  if isName ts && beginsOperator ":" behind && !beginsOperator "::" behind then
    let w ← anyWord
    operator ":"
    return some ⟨w⟩
  return none

def beginsSelf (ts : List Token) : Bool :=
  beginsWord "mut" ts && beginsWord "self" (behindFirst ts)

/-- A mutable receiver, with its type or without, instead of an input. -/
def mutableSelf : Reader Unit := do
  word "mut"
  if (← inputNameIf (beginsWord "self")).isSome then
    let _ ← g.type true
  else word "self"

def isInputName (ts : List Token) : Bool :=
  beginsName ts || beginsWord "_" ts

/-- An input of a function type. Of a mutable receiver, which only the first one can be, nothing is
known. -/
def functionInput (marks : Marks) (isFirst : Bool) : Reader FunctionInput := do
  let isSelf (ts : List Token) := isFirst && beginsWord "self" ts
  if isFirst && (← next beginsSelf) then
    let (_, tokens) ← withTokens (mutableSelf g)
    return .mk marks none (.verbatim tokens)
  let before ← get
  let name ← inputNameIf fun ts => isInputName ts || isSelf ts
  let isNamedSelf := name.any (·.text == "self")
  if isFirst && !isNamedSelf && (← next beginsSelf) then
    drop 2
    return .mk marks none (.verbatim (before.take (before.length - (← get).length)))
  return .mk marks name (← g.type true)

/-- The dots that stand for further inputs, the last of which they are. -/
def variadic (marks : Marks) : Reader Variadic := do
  let name ← inputNameIf isInputName
  operator "..."
  return .mk marks name (← operatorIf ",")

def beginsVariadic (ts : List Token) : Bool :=
  beginsOperator "..." ts ||
    isInputName ts && beginsOperator ":" (behindFirst ts) &&
      beginsOperator "..." ((behindFirst ts).drop 1)

/-- Inputs up to the end of the tokens, in reverse, whether a comma follows the last, and what
stands for further ones. -/
abbrev Inputs := List FunctionInput × Bool × Option Variadic

/-- Takes another input, if there is one. -/
def moreInputs : Inputs → Reader (Option Inputs)
  | (found, trailing, none) => do
    if ← isAtEnd then return none
    if !found.isEmpty && !trailing then failure
    let marks ← marks g
    if ← next beginsVariadic then return some (found, true, some (← variadic marks))
    let input ← functionInput g marks found.isEmpty
    return some (input :: found, ← operatorIf ",", none)
  | (_, _, some _) => return none

def abiIf : Reader (Option (Option String)) := do
  if !(← wordIf "extern") then return none
  match ← get with
  | .literal l :: rest =>
    if l.startsWith "\"" || l.startsWith "r" then
      set rest
      return some (some l)
    else return some none
  | _ => return some none

def function (quantifier : Quantifier) : Reader Ty := do
  let isUnsafe ← wordIf "unsafe"
  let abi ← abiIf
  word "fn"
  let (found, trailing, more) ← within .paren (iterate (moreInputs g) ([], false, none))
  return .function quantifier isUnsafe abi found.reverse trailing more (← output g false)

def beginsFunction (ts : List Token) : Bool :=
  beginsWord "fn" ts || beginsWord "unsafe" ts || beginsWord "extern" ts

/-! ## Types -/

/-- A type that begins with a path, which is a bound if there is something for all lifetimes. -/
def pathType (quantifier : Quantifier) (plus : Bool) : Reader Ty := do
  let (qualification, p) ← qualifiedPath g false
  if let some (self, position) := qualification then return .qualified self position p
  if (← next beginsBang) && p.isPlain then
    drop 1
    let (delimiter, inner) ← group
    return .macroCall p delimiter inner
  let isBound := match quantifier with
    | .forAll .. => true
    | .none => false
  if isBound || (plus && (← next (beginsOperator "+"))) then
    let first := Bound.trait false false quantifier p
    if plus then return ← withMoreBounds g first (beginsBound {})
    return .traitObject false [first] false
  return .path p

/-- A trait object after its word. With a star behind the word nothing is known of it. -/
def traitObject (plus : Bool) : Reader Ty := do
  let (isKnown, tokens) ← withTokens do
    word "dyn"
    let isStarred ← operatorIf "*"
    let (found, trailing) ← traitBounds g {} plus
    return if isStarred then none else some (Ty.traitObject true found trailing)
  return isKnown.getD (.verbatim tokens)

/-- A slice or an array. -/
def sequenceType : Reader Ty :=
  within .bracket do
    let element ← g.type true
    if ← operatorIf ";" then return .array element (← g.value)
    return .slice element

def pointer : Reader Ty := do
  operator "*"
  let isMut ← wordIf "mut"
  if !isMut then word "const"
  return .pointer isMut (← g.type false)

def referenceType : Reader Ty := do
  operator "&"
  let lifetime ← lifetimeIf
  return .reference lifetime (← wordIf "mut") (← g.type false)

/-- A type for all of some parameters. -/
def quantifiedType (plus : Bool) : Reader Ty := do
  let quantifier ← quantifierIf g
  let ts ← get
  if beginsFunction ts then function g quantifier
  else if beginsPlainPathWord ts then pathType g quantifier plus
  else failure

/-- A type. With `plus`, several bounds may follow each other. -/
def type (plus : Bool) : Reader Ty := do
  let ts ← get
  if beginsWord "for" ts then quantifiedType g plus
  else if beginsGroup .paren ts then parenthesized g plus
  else if beginsFunction ts then function g .none
  else if beginsPath ts then pathType g .none plus
  else if beginsWord "dyn" ts then traitObject g plus
  else if beginsGroup .bracket ts then sequenceType g
  else if beginsOperator "*" ts then pointer g
  else if beginsOperator "&" ts then referenceType g
  else if beginsBang ts then do drop 1; return .never
  else if beginsWord "impl" ts then do
    drop 1
    let (found, trailing) ← traitBounds g { capturing := true, constant := true } plus
    return .implTrait found trailing
  else if beginsWord "_" ts then do drop 1; return .infer
  else if beginsLifetime ts then do
    let (found, trailing) ← traitBounds g {} true
    return .traitObject false found trailing
  else failure

end SchemaBindings.Code.Reader
