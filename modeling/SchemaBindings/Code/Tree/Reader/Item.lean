import SchemaBindings.Code.Tree.Reader.Fields
import SchemaBindings.Code.Tree.Reader.Import

/-!
Reading the items that a body declares for itself. They are kept by their parts; of forms that the
language reads but gives no meaning only the tokens are kept.
-/

namespace SchemaBindings.Code.Reader

open Layout (Doc)
open Print

variable (g : Grammar)

/-! ## Macros -/

/-- The definition or the call of a macro; only a definition may have a name. -/
def macroItem (mayHaveName : Bool) : Reader Assembly := do
  let p ← plainPath
  operator "!"
  let name ← if mayHaveName && ((← next beginsName) || (← next (beginsWord "try"))) then
      some <$> anyWord
    else pure none
  let (delimiter, inner) ← group
  if delimiter ≠ .brace then operator ";"
  let ending : Written := if delimiter = .brace then {} else .operator ";" ";"
  let shownName := name.map fun n => Written.ofDocs (text " ") ++ .ident ⟨n⟩
  let called := ⟨p.tokens, some (p.print .simple)⟩ ++ .operator "!" "!" ++ shownName.getD {} ++
    ⟨[.group delimiter inner], some (macroArgs delimiter inner)⟩ ++ ending
  let isDefinition := !p.leading && p.segments.map (·.ident.text) == ["macro_rules"]
  let w : Written := match name with
    | some n => if isDefinition then { called with layout := macroDefinition? n inner } else called
    | none => called
  return .fixed (w ++ .ofDocs [hardBreak])

/-- Whether a macro may begin here. -/
def beginsMacroItem (ts : List Token) : Bool :=
  beginsName ts || beginsOperator "::" ts || ["self", "super", "crate"].any (beginsWord · ts)

/-- The definition of a macro in its newer form, of which nothing is known. -/
def macroDefinition : Reader Unit := do
  word "macro"
  let _ ← name
  if ← next (beginsGroup .paren) then drop 1
  let (delimiter, _) ← group
  if delimiter ≠ .brace then failure

/-! ## Members of items -/

/-- Members up to the end of the tokens, with the attributes of what they are the members of. -/
def members (member : Reader Assembly) : Reader Assembly := do
  let inner ← innerMarks g
  let found ← many do
    if ← isAtEnd then return none
    some <$> member
  return .part (.innerMarks inner) ++ .join found

/-- A member with its attributes. Of an unknown one the tokens are kept. -/
def markedMember (member : Assembly → Reader (Option Assembly)) : Reader Assembly := do
  let (found, tokens) ← withTokens do
    let marks ← marks g
    member (.part (.marks marks))
  return found.getD (.ofTokens tokens)

/-- A member of a trait. -/
def traitMember : Reader Assembly :=
  markedMember g fun marks => do
    let before ← get
    let _ ← visibility
    let _ ← wordIf "default"
    let ts ← get
    let isPlain := ts.length == before.length
    let found ← if beginsFunctionItem false ts then (some ·.assembly) <$> functionItem g {} false
      else if beginsWord "const" ts then do
        let (w, _, isUnknown) ← constantItem g {}
        pure (if isUnknown then none else some w)
      else if beginsWord "type" ts then do
        let i ← typeItem g {} false true
        let ending := i.after.assembled ⟨false, true⟩
        pure (some ((i.head ++ i.bounds ++ i.definition ++ ending).statement 4))
      else if isPlain && beginsMacroItem ts then some <$> macroItem false
      else failure
    return if isPlain then found.map (marks ++ ·) else none

/-- A member of an implementation. -/
def implMember : Reader Assembly :=
  markedMember g fun marks => do
    let before ← get
    let v ← visibility
    let isDefault := beginsWord "default" (← get) && !beginsOperator "!" ((← get).drop 1)
    if isDefault then drop 1
    let ts ← get
    let start := v ++ if isDefault then .word "default" else {}
    let found ← if beginsFunctionItem false ts then do
        let f ← functionItem g start false
        pure (if f.hasBody then some f.assembly else none)
      else if beginsWord "const" ts then do
        let (w, hasValue, isUnknown) ← constantItem g start
        pure (if isUnknown || !hasValue then none else some w)
      else if beginsWord "type" ts then do
        let i ← typeItem g start false true
        let w := (i.head ++ i.definition ++ i.after.assembled ⟨false, true⟩).statement 4
        pure (if i.hasColon || i.type.isNone then none else some w)
      else if ts.length == before.length && beginsMacroItem ts then some <$> macroItem false
      else failure
    return found.map (marks ++ ·)

/-- A static variable of another language. One with a value or a word about its safety is not
known. -/
def foreignStatic (start : Assembly) : Reader (Option Assembly) := do
  let isMarked ← if ← wordIf "unsafe" then pure true else wordIf "safe"
  word "static"
  let isMut ← wordIf "mut"
  let name ← name
  let typed ← typedName g name
  let value ← preset g.value
  operator ";"
  let w := start ++ .word "static" ++ (if isMut then .word "mut" else {}) ++ typed ++
    .operator ";" ";"
  return if isMarked || value.isSome then none else some (w.statement 0)

/-- Something that another language provides. -/
def foreignMember : Reader Assembly :=
  markedMember g fun marks => do
    let before ← get
    let v ← visibility
    let ts ← get
    let beginsStatic (ts : List Token) := beginsWord "static" ts
    let found ← if beginsFunctionItem true ts then do
        let f ← functionItem g v true
        pure (if f.isSafe || f.hasBody then none else some f.assembly)
      else if beginsStatic ts ||
          (beginsWord "unsafe" ts || beginsWord "safe" ts) && beginsStatic (ts.drop 1) then
        foreignStatic g v
      else if beginsWord "type" ts then do
        let i ← typeItem g v true true
        let c := if i.before.items.isEmpty then i.after else i.before
        let ending := (c.assembled ⟨false, true⟩).map fun w => { w with layout := some (text ";") }
        pure (if i.hasColon || i.type.isSome then none else some ((i.head ++ ending).statement 0))
      else if ts.length == before.length && beginsMacroItem ts then some <$> macroItem false
      else failure
    return found.map (marks ++ ·)

/-! ## Items with members -/

/-- Members in braces. -/
def inBraces (head : Assembly) (member : Reader Assembly) : Reader Assembly := do
  return .braced head (← within .brace (members g member))

/-- What another language provides. -/
def foreignItem : Reader Assembly := do
  let isUnsafe ← wordIf "unsafe"
  let some abi ← abiIf | failure
  inBraces g ((if isUnsafe then .word "unsafe" else {}) ++ assembledAbi abi) (foreignMember g)

def moduleItem (start : Assembly) : Reader Assembly := do
  let isUnsafe ← wordIf "unsafe"
  word "mod"
  let name ← if ← next (beginsWord "try") then Ident.mk <$> anyWord else name
  let head := start ++ (if isUnsafe then .word "unsafe" else {}) ++ .word "mod" ++ .ident name
  if ← operatorIf ";" then return (head ++ .operator ";" ";").statement 4
  inBraces g (head ++ .ofDocs (text " ")) g.item

/-- A trait, or another name for several bounds. -/
def traitItem (start : Assembly) : Reader Assembly := do
  let words ← ["unsafe", "auto"].filterM wordIf
  let head ← namedHead g (start ++ .words words) "trait"
  let bound := g.bound { constant := true }
  if words.isEmpty && (← next (beginsOperator "=")) then
    operator "="
    let ends (ts : List Token) : Bool := beginsWord "where" ts || beginsOperator ";" ts
    let (bounds, trailing) ← sum ends bound
    let docs : List (List Doc) → List Doc
      | [] => []
      | first :: rest => first ++ plusItems rest
    let bounds := assembledSum trailing docs (bounds.map (.part ∘ .bound))
    let c ← conditions g
    operator ";"
    return (head ++ .operator "=" " = " ++ .ofDocs [neverBreak] ++ bounds ++
      c.assembled ⟨true, true⟩).statement 4
  let hasColon ← operatorIf ":"
  let ends (ts : List Token) : Bool := beginsWord "where" ts || beginsGroup .brace ts
  let (bounds, trailing) ← if hasColon then sum ends bound else pure ([], false)
  let sum := assembledSum trailing (Print.separated " + ") (bounds.map (.part ∘ .bound))
  let above : Assembly := if bounds.isEmpty then {} else .operator ":" ": " ++ sum
  let c ← conditions g
  inBraces g (head ++ above ++ c.assembled ⟨true, false⟩) (traitMember g)

/-- An implementation. One that is constant, or of what is no path, is not known. -/
def implItem : Reader (Option Assembly) := do
  let words ← ["default", "unsafe"].filterM wordIf
  word "impl"
  let params ← if ← next beginsGenericParams then generics g else pure {}
  let ts ← get
  let isConst := beginsWord "const" ts || beginsOperator "?" ts && beginsWord "const" (ts.drop 1)
  if isConst then
    let _ ← operatorIf "?"
    word "const"
  let ts ← get
  let isNegative := beginsOperator "!" ts && !beginsGroup .brace (ts.drop 1)
  if isNegative then operator "!"
  let first ← g.type true
  let isFor ← wordIf "for"
  if isNegative && !isFor then failure
  let self ← if isFor then g.type true else pure first
  let trait : Option Assembly := match isFor, first with
    | false, _ => some {}
    | true, .path p =>
      let mark : Assembly := if isNegative then .operator "!" "!" else {}
      some (mark ++ .part (.path p) ++ .ofDocs [space] ++ .word "for")
    | true, _ => none
  let c ← conditions g
  let start := (Assembly.words words ++ .ident ⟨"impl"⟩ ++ params).grouped true 4 ++
    .ofDocs (text " ") ++ trait.getD {} ++ .part (.type self)
  let w ← inBraces g (start.grouped false (-4) ++ c.assembled ⟨true, false⟩) (implMember g)
  return if isConst || trait.isNone then none else some w

/-! ## Items -/

/-- An item behind the word `extern`, which is no function. -/
def externItem (start : Assembly) (isInherited : Bool) : Reader Assembly := do
  if beginsWord "crate" ((← get).drop 1) then libraryItem start
  else if isInherited then foreignItem g
  else failure

/-- An item behind the word `unsafe`, which is no function. -/
def unsafeItem (start : Assembly) (isInherited : Bool) : Reader (Option Assembly) := do
  let behind := (← get).drop 1
  let isAuto := beginsWord "auto" behind && beginsWord "trait" (behind.drop 1)
  if beginsWord "trait" behind || isAuto then some <$> traitItem g start
  else if beginsWord "impl" behind then implItem g
  else if beginsWord "extern" behind && isInherited then some <$> foreignItem g
  else if beginsWord "mod" behind then some <$> moduleItem g start
  else failure

/-- An item behind its attributes and its visibility. -/
def itemBehind (v : Assembly) (isInherited : Bool) : Reader (Option Assembly) := do
  let ts ← get
  let behind := behindFirst ts
  if beginsFunctionItem false ts then
    let f ← functionItem g v false
    return if f.hasBody then some f.assembly else none
  else if beginsWord "extern" ts then some <$> externItem g v isInherited
  else if beginsWord "use" ts then useItem v
  else if beginsWord "static" ts then staticItem g v
  else if beginsWord "const" ts then
    let (w, hasValue, isUnknown) ← constantItem g v
    return if isUnknown || !hasValue then none else some w
  else if beginsWord "unsafe" ts then unsafeItem g v isInherited
  else if beginsWord "mod" ts then some <$> moduleItem g v
  else if beginsWord "type" ts then
    let i ← typeItem g v true false
    let type := i.type.getD {}
    let w := (i.head ++ i.before.assembled ⟨false, false⟩ ++ .operator "=" "= " ++ type ++
      .operator ";" ";").statement 4
    return if i.hasColon || i.type.isNone then none else some w
  else if beginsWord "struct" ts then some <$> structItem g v
  else if beginsWord "enum" ts then some <$> enumItem g v
  else if beginsWord "union" ts && beginsName behind then some <$> unionItem g v
  else if beginsWord "trait" ts || beginsWord "auto" ts && beginsWord "trait" behind then
    some <$> traitItem g v
  else if beginsWord "impl" ts || beginsWord "default" ts && !beginsOperator "!" behind then do
    let found ← implItem g
    return if isInherited then found else none
  else if beginsWord "macro" ts then do
    macroDefinition
    return none
  else if isInherited && beginsMacroItem ts then some <$> macroItem true
  else failure

/-- An item with its attributes. -/
def item : Reader Assembly :=
  markedMember g fun marks => do
    let before ← get
    let v ← visibility
    let isInherited := (← get).length == before.length
    return (← itemBehind g v isInherited).map (marks ++ ·)

end SchemaBindings.Code.Reader
