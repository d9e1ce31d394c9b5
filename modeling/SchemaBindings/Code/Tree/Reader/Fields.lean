import SchemaBindings.Code.Tree.Reader.Declaration

/-!
Reading structures and enums with their fields.
-/

namespace SchemaBindings.Code.Reader

open Layout (Doc)
open Print

variable (g : Grammar)

/-! ## Fields -/

/-- The type of a field. Of the fields that a nameless field is made of nothing is known. -/
def fieldType (readsFields : Reader Unit) (isNameless : Bool) : Reader Assembly := do
  let ts ← get
  let isNested := beginsWord "struct" ts ||
    beginsWord "union" ts && beginsGroup .brace (behindFirst ts)
  if isNameless && isNested then
    let (_, tokens) ← withTokens (anyWord *> readsFields)
    return .ofTokens tokens
  return .part (.type (← g.type true))

/-- Fields with names, and whether a comma follows the last. -/
def namedFields (fuel : Nat) : Reader (List Assembly × Bool) := do
  match fuel with
  | 0 => failure
  | fuel + 1 =>
    within .brace <| wholeList do
      let marks ← marks g
      let v ← visibility
      let name ← constantName
      operator ":"
      let type ← fieldType g (do let _ ← namedFields fuel) (name.text == "_")
      return .part (.marks marks) ++ v ++ .ident name ++ .operator ":" ": " ++ type

/-- Fields with places for names. -/
def placedFields : Reader Assembly := do
  let (fields, trailing) ← within .paren <| wholeList do
    let marks ← marks g
    let v ← visibility
    return .part (.marks marks) ++ v ++ .part (.type (← g.type true))
  let inner := Assembly.combine (withCommas trailing) listDocs fields
  return inner.enclosed .paren "(" ")"

def fieldsHere : Reader (List Assembly × Bool) := do
  namedFields g (weights (← get) + 1)

/-! ## Structures -/

/-- The head of an item with its name and parameters. -/
def namedHead (start : Assembly) (w : String) : Reader Assembly := do
  word w
  let name ← name
  return start ++ .word w ++ .ident name ++ (← generics g)

/-- A structure, whose fields have names or places or are not there at all. -/
def structItem (start : Assembly) : Reader Assembly := do
  let head ← namedHead g start "struct"
  let hasConditions ← next (beginsWord "where")
  let c ← conditions g
  if ← next (beginsGroup .brace) then
    let (fields, trailing) ← fieldsHere g
    return .braced (head ++ c.assembled ⟨true, false⟩) (assembledLines trailing fields)
  if !hasConditions && (← next (beginsGroup .paren)) then
    let fields ← placedFields g
    let c ← conditions g
    operator ";"
    return (head ++ fields ++ c.assembled ⟨true, true⟩).statement 4
  operator ";"
  return (head ++ c.assembled ⟨true, true⟩).statement 4

/-- A structure whose fields share their place. -/
def unionItem (start : Assembly) : Reader Assembly := do
  let head ← namedHead g start "union"
  let c ← conditions g
  let (fields, trailing) ← fieldsHere g
  return .braced (head ++ c.assembled ⟨true, false⟩) (assembledLines trailing fields)

/-! ## Enums -/

/-- Fields of a variant in braces. -/
def variantFields (fields : List Assembly) (trailing : Bool) : Assembly :=
  let docs (items : List (List Doc)) : List Doc :=
    [.group true 4 (outdented (space :: if items.isEmpty then []
      else joined items ++ [.line { blanks := 1, before := "," }]))]
  (Assembly.combine (withCommas trailing) docs fields).enclosed .brace " \x7b" "\x7d"

/-- A variant of an enum. Who may use it is not kept. -/
def variant : Reader Assembly := do
  let marks ← marks g
  let _ ← visibility
  let name ← name
  let ts ← get
  let fields ← if beginsGroup .brace ts then do
      let (fields, trailing) ← fieldsHere g
      pure (variantFields fields trailing)
    else if beginsGroup .paren ts then do
      pure ((← placedFields g).grouped true 4)
    else pure {}
  let value ← preset g.value
  let number := (value.map fun e => Assembly.operator "=" " = " ++ .part (.expr e)).getD {}
  return .part (.marks marks) ++ .ident name ++ fields ++ number

def enumItem (start : Assembly) : Reader Assembly := do
  let head ← namedHead g start "enum"
  let c ← conditions g
  let (variants, trailing) ← within .brace (wholeList (variant g))
  return .braced (head ++ c.assembled ⟨true, false⟩) (assembledLines trailing variants)

end SchemaBindings.Code.Reader
