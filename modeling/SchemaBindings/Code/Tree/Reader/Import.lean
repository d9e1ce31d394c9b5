import SchemaBindings.Code.Tree.Reader.Declaration

/-!
Reading imports.
-/

namespace SchemaBindings.Code.Reader

open Layout (Doc)
open Print

/-- The other name of something imported. -/
def renamed (first : Assembly) : Reader Assembly := do
  if ← wordIf "as" then
    let other ← constantName
    return first ++ .ofDocs (text " ") ++ .word "as" ++ .ident other
  return first

/-- Names that are imported, and whether they end with a list. A list that nothing stands before may
hold names from the root of everything, of which nothing is known. -/
def useTree (fuel : Nat) (mayBeRoot : Bool) : Reader (Option (Assembly × Bool)) := do
  match fuel with
  | 0 => failure
  | fuel + 1 =>
    if ← operatorIf "*" then return some (.operator "*" "*", false)
    if ← next (beginsGroup .brace) then
      let (found, trailing) ← within .brace (wholeList do
        let isRoot ← if mayBeRoot then operatorIf "::" else pure false
        let tree ← useTree fuel (mayBeRoot && !isRoot)
        return if isRoot then none else tree)
      return (found.mapM id).map fun trees => (braces trees trailing, true)
    let ts ← get
    if !(beginsName ts || ["self", "super", "crate", "try"].any (beginsWord · ts)) then failure
    let first := Assembly.ident ⟨← anyWord⟩
    if ← operatorIf "::" then
      return (← useTree fuel false).map fun (rest, isList) =>
        (first ++ .operator "::" "::" ++ rest, isList)
    return some (← renamed first, false)
where
  treesDocs : List (Bool × List Doc) → List Doc
    | [] => []
    | [(_, ds)] => ds
    | (isList, ds) :: next :: rest =>
      ds ++ .text "," :: (if isList then hardBreak else space) :: treesDocs (next :: rest)
  braces (trees : List (Assembly × Bool)) (trailing : Bool) : Assembly :=
    let inner := Assembly.combine (withCommas trailing)
      (fun items => [.group true 4 (outdented [zeroBreak,
        .group false 0 (treesDocs ((trees.map (·.2)).zip items)), lastComma])]) (trees.map (·.1))
    inner.enclosed .brace "\x7b" "\x7d"

def useItem (start : Assembly) : Reader (Option Assembly) := do
  word "use"
  let isRoot ← operatorIf "::"
  let tree ← useTree (weights (← get) + 1) !isRoot
  operator ";"
  return tree.map fun (w, _) =>
    start ++ .word "use" ++ (if isRoot then .operator "::" "::" else {}) ++ w ++
      .operator ";" ";" ++ .ofDocs [hardBreak]

/-- A library that is made a module. -/
def libraryItem (start : Assembly) : Reader Assembly := do
  word "extern"
  word "crate"
  let name ← if ← next (beginsWord "self") then Ident.mk <$> anyWord else name
  let w ← renamed (.ident name)
  operator ";"
  return start ++ .words ["extern", "crate"] ++ w ++ .operator ";" ";" ++ .ofDocs [hardBreak]

end SchemaBindings.Code.Reader
