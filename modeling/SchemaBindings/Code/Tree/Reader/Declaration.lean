import SchemaBindings.Code.Tree.Reader.Pattern
import SchemaBindings.Code.Tree.Reader.Type

/-!
Reading what items have in common: who may use them, their parameters and the conditions on these,
and the functions, constants and types that stand among items and among their members.
-/

namespace SchemaBindings.Code.Reader

open Layout (Doc)
open Print

variable (g : Grammar)

/-! ## Visibility -/

/-- Who may use what follows. -/
def visibility : Reader Assembly := do
  if !(← wordIf "pub") then return {}
  match ← get with
  | .group .paren [.word w] :: rest =>
    if ["crate", "self", "super"].contains w then
      set rest
      return .fixed ⟨[.word "pub", .group .paren [.word w]], some (text ("pub(" ++ w ++ ") "))⟩
    return .word "pub"
  | .group .paren (.word "in" :: inner) :: rest =>
    let some (p, []) := plainPath inner | failure
    set rest
    let isWord := !p.leading && p.segments.length == 1 &&
      p.segments.all fun s => ["crate", "self", "super"].contains s.ident.text
    return .fixed ⟨[.word "pub", .group .paren (.word "in" :: p.tokens)],
      some (.text (if isWord then "pub(" else "pub(in ") :: (p.print .simple ++ text ") "))⟩
  | _ => return .word "pub"

/-! ## Parameters and conditions -/

/-- A parameter between angle brackets, which may be left without a name. -/
def namedParam : Reader GenericParam := do
  let ts ← get
  let marks ← marks g
  if ← wordIf "_" then return .type marks ⟨"_"⟩ [] false none
  set ts
  genericParam g

/-- Parameters between angle brackets, if there are any. -/
def generics : Reader Assembly := do
  if !(← operatorIf "<") then return {}
  let (params, trailing) ← list (beginsOperator ">") (namedParam g)
  operator ">"
  return assembledParams params trailing

/-- A colon that no other one follows. -/
def beginsColon (ts : List Token) : Bool :=
  beginsOperator ":" ts && !beginsOperator "::" ts

/-- Where a condition ends, or all of them do. -/
def endsCondition (ts : List Token) : Bool :=
  ts.isEmpty || beginsGroup .brace ts || beginsOperator "," ts || beginsOperator ";" ts ||
    beginsColon ts || beginsOperator "=" ts

/-- What has to be true of a parameter. -/
def paramCondition : Reader Assembly := do
  let ts ← get
  if beginsLifetime ts && beginsOperator ":" (behindFirst ts) then
    let l ← lifetime
    operator ":"
    let (bounds, trailing) ← sum endsCondition lifetime
    let sum := assembledSum trailing (sumDocs 4) (bounds.map assembledLifetime)
    return assembledLifetime l ++ .operator ":" ":" ++ sum
  let quantifier ← quantifierIf g
  let type ← g.type true
  operator ":"
  let (bounds, trailing) ← sum endsCondition (g.bound { constant := true })
  let sum := assembledSum trailing (sumDocs (if bounds.length = 1 then 0 else 4))
    (bounds.map (.part ∘ .bound))
  return .part (.quantifier quantifier) ++ .part (.type type) ++ .operator ":" ":" ++ sum
where
  sumDocs (offset : Int) (items : List (List Doc)) : List Doc :=
    match items with
    | [] => [.group false offset []]
    | first :: rest => [.group false offset (.text " " :: (first ++ plusItems rest))]

def conditions : Reader Conditions := do
  if !(← wordIf "where") then return {}
  let (items, trailing) ← list endsCondition (paramCondition g)
  return ⟨items, trailing⟩

/-! ## Functions -/

/-- The receiver of a function. -/
def receiver : Reader Assembly := do
  let reference ← if ← operatorIf "&" then
      let l := (← lifetimeIf).map fun name => assembledLifetime name ++ .ofDocs (text " ")
      pure (some (Assembly.operator "&" "&" ++ l.getD {}))
    else pure none
  let isMut ← wordIf "mut"
  word "self"
  let type ← if reference.isSome then pure none
    else if ← operatorIf ":" then some <$> g.type true
    else pure none
  return reference.getD {} ++ (if isMut then .word "mut" else {}) ++ .ident ⟨"self"⟩ ++
    (type.map fun t => Assembly.operator ":" ": " ++ .part (.type t)).getD {}

/-- A parameter of a function that is no receiver, or what stands for further ones. A type with
arguments stands for a parameter without a name. -/
def typedInput : Reader (Assembly × Bool) := do
  if ← operatorIf "..." then return (.operator "..." "...", true)
  let ts ← get
  if beginsName ts && beginsOperator "<" (behindFirst ts) then
    return (.ident ⟨"_"⟩ ++ .operator ":" ": " ++ .part (.type (← g.type true)), false)
  let p ← g.pattern
  operator ":"
  let start := .part (.pattern p) ++ Assembly.operator ":" ": "
  if ← operatorIf "..." then return (start ++ .operator "..." "...", true)
  return (start ++ .part (.type (← g.type true)), false)

/-- Parameters in reverse, whether a comma follows the last, and what stands for further ones. -/
abbrev FunctionInputs := List Assembly × Bool × Option Assembly

def moreFunctionInputs : FunctionInputs → Reader (Option FunctionInputs)
  | (found, trailing, none) => do
    if ← isAtEnd then return none
    if !found.isEmpty && !trailing then failure
    let marks := Assembly.part (.marks (← marks g))
    let ts ← get
    match receiver g ts with
    | some (w, rest) =>
      set rest
      if !found.isEmpty then failure
      return some ([marks ++ w], ← operatorIf ",", none)
    | none =>
      let (w, isVariadic) ← typedInput g
      let comma ← operatorIf ","
      if !isVariadic then return some ((marks ++ w) :: found, comma, none)
      let ending : Assembly := .fixed { tokens := if comma then [.comma] else [] }
      return some (found, trailing, some (marks ++ w ++ ending))
  | (_, _, some _) => return none

/-- The parameters of a function between its parentheses. -/
def functionInputs : Reader Assembly := do
  let (found, trailing, more) ← iterate (moreFunctionInputs g) ([], false, none)
  let inputs := found.reverse
  match more with
  | none => return .combine (withCommas trailing) listDocs inputs
  | some w =>
    let count := inputs.length
    return .combine
      (fun parts => withCommas trailing (parts.take count) ++ (parts.drop count).flatten)
      (fun items => outdented (zeroBreak :: (joined items ++ [zeroBreak]))) (inputs ++ [w])

/-- The words in front of a function, and whether one of them is `safe`, which is not always
allowed. -/
def functionWords (allowsSafe : Bool) : Reader (List String × Bool) := do
  let words ← ["const", "async", "unsafe"].filterM wordIf
  let isSafe ← if allowsSafe && !words.contains "unsafe" then wordIf "safe" else pure false
  return (words, isSafe)

/-- Whether a function begins here. -/
def beginsFunctionItem (allowsSafe : Bool) (ts : List Token) : Bool :=
  let head : Reader Bool := do
    let _ ← functionWords allowsSafe
    let _ ← abiIf
    next (beginsWord "fn")
  match head ts with
  | some (found, _) => found
  | none => false

def assembledAbi (name : Option String) : Assembly :=
  .word "extern" ++ match name with
    | none => {}
    | some l => .fixed ⟨[.literal l], some (text (l ++ " "))⟩

/-- The head of a function from its keyword to its result. -/
def functionHead : Reader Assembly := do
  word "fn"
  let name ← name
  let params ← generics g
  let inputs ← within .paren (functionInputs g)
  let result ← output g true
  let arguments := inputs.map fun w =>
    { tokens := [.group .paren w.tokens]
      layout := w.layout.map fun ds =>
        [.text "(", neverBreak, .group true 0 ds, .text ")"] }
  let returned : Assembly := match result with
    | none => {}
    | some t => .operator "->" " -> " ++ .part (.type t)
  return .word "fn" ++ .ident name ++ params ++ arguments ++ returned.grouped true (-4)

structure FunctionItem where
  assembly : Assembly
  hasBody : Bool
  isSafe : Bool

/-- A function, whose body may be left out if a semicolon stands for it. -/
def functionItem (start : Assembly) (allowsSafe : Bool) : Reader FunctionItem := do
  let (words, isSafe) ← functionWords allowsSafe
  let abi ← abiIf
  let head := start ++ .words words ++ (abi.map assembledAbi).getD {} ++ (← functionHead g)
  let c ← conditions g
  if ← operatorIf ";" then
    return ⟨(head ++ c.assembled ⟨true, true⟩).statement 4, false, isSafe⟩
  let body ← markedBody g
  return ⟨.braced (head ++ c.assembled ⟨true, false⟩) (.part (.statements body)), true, isSafe⟩

/-! ## Values and types -/

/-- The value behind an equals sign. -/
def presetValue : Reader (Option Assembly) := do
  if ← operatorIf "=" then return some (.ofDocs [neverBreak] ++ .part (.expr (← g.value)))
  else return none

/-- A name and, behind a colon, its type. -/
def typedName (name : Ident) : Reader Assembly := do
  operator ":"
  return .ident name ++ .operator ":" ": " ++ .part (.type (← g.type true))

/-- The name of a constant, which may be left out. -/
def constantName : Reader Ident := do
  if ← wordIf "_" then return ⟨"_"⟩ else name

/-- A constant, with its value or without; whether it has parameters or conditions. -/
def constantItem (start : Assembly) : Reader (Assembly × Bool × Bool) := do
  word "const"
  let name ← constantName
  let hasParams ← next (beginsOperator "<")
  let _ ← generics g
  let head := start ++ .word "const" ++ (← typedName g name)
  let value ← presetValue g
  let hasConditions ← next (beginsWord "where")
  let _ ← conditions g
  operator ";"
  let preset := (value.map (Assembly.operator "=" " = " ++ ·)).getD {}
  return ((head ++ preset ++ .operator ";" ";").statement 4, value.isSome,
    hasParams || hasConditions)

/-- A static variable, of which only one with a type and a value is known. -/
def staticItem (start : Assembly) : Reader (Option Assembly) := do
  word "static"
  let isMut ← wordIf "mut"
  let name ← name
  let head := start ++ .word "static" ++ (if isMut then .word "mut" else {})
  if ← operatorIf "=" then
    let _ ← g.value
    operator ";"
    return none
  let head := head ++ (← typedName g name)
  if ← operatorIf ";" then return none
  match ← presetValue g with
  | none => failure
  | some value =>
    operator ";"
    return some ((head ++ .operator "=" " = " ++ value ++ .operator ";" ";").statement 0)

/-- The parts of a name for a type. -/
structure TypeItem where
  head : Assembly
  hasColon : Bool
  bounds : Assembly
  before : Conditions
  type : Option Assembly
  after : Conditions

/-- A name for a type. Conditions stand in front of the type, behind it, or in either place. -/
def typeItem (start : Assembly) (mayBeBefore mayBeAfter : Bool) : Reader TypeItem := do
  word "type"
  let name ← name
  let params ← generics g
  let hasColon ← operatorIf ":"
  let ends (ts : List Token) : Bool :=
    beginsWord "where" ts || beginsOperator "=" ts || beginsOperator ";" ts
  let (bounds, trailing) ← if hasColon then sum ends (g.bound { constant := true })
    else pure ([], false)
  let hasBefore ← next (beginsWord "where")
  let before ← if mayBeBefore then conditions g else pure {}
  let type ← preset (g.type true)
  let after ← if mayBeAfter && !(mayBeBefore && hasBefore) then conditions g else pure {}
  operator ";"
  let sum := assembledSum trailing colonItems (bounds.map (.part ∘ .bound))
  let colon := if bounds.isEmpty then [] else [Token.mark ':' false]
  return {
    head := start ++ .word "type" ++ .ident name ++ params
    hasColon, before, after
    bounds := sum.map fun w => { w with tokens := colon ++ w.tokens }
    type := type.map fun t =>
      .ofDocs [neverBreak] ++ (Assembly.part (.type t)).grouped false (-4) }

/-- A type behind an equals sign. -/
def TypeItem.definition (i : TypeItem) : Assembly :=
  (i.type.map (Assembly.operator "=" " = " ++ ·)).getD {}

end SchemaBindings.Code.Reader
