import SchemaBindings.Code.Print

/-!
Items that a body declares for itself: the parts that they are made of, and how they are written
down once those are.
-/

namespace SchemaBindings.Code

open Layout (Doc)
open Print

structure Assembly where
  parts : List Part := []
  assemble : List Written → Written := fun _ => {}

namespace Assembly

/-- A piece without parts. -/
def fixed (w : Written) : Assembly :=
  ⟨[], fun _ => w⟩

def ofTokens (ts : List Token) : Assembly :=
  fixed (.ofTokens ts)

def ofDocs (ds : List Doc) : Assembly :=
  fixed (.ofDocs ds)

def ident (i : Ident) : Assembly :=
  fixed (.ident i)

def word (w : String) : Assembly :=
  fixed (.word w)

def operator (o shown : String) : Assembly :=
  fixed (.operator o shown)

def words (ws : List String) : Assembly :=
  fixed (.words ws)

/-- A single part. -/
def part (p : Part) : Assembly :=
  ⟨[p], fun ws => ws.head?.getD {}⟩

def map (f : Written → Written) (a : Assembly) : Assembly :=
  { a with assemble := f ∘ a.assemble }

/-- Each piece from its own parts. -/
def assembleEach : List Assembly → List Written → List Written
  | [], _ => []
  | a :: rest, ws =>
    a.assemble (ws.take a.parts.length) :: assembleEach rest (ws.drop a.parts.length)

/-- Pieces that are written together. -/
def together (f : List Written → Written) (as : List Assembly) : Assembly :=
  ⟨as.flatMap (·.parts), f ∘ assembleEach as⟩

def join (as : List Assembly) : Assembly :=
  together .join as

instance : Append Assembly where
  append a b := join [a, b]

def combine (joinTokens : List (List Token) → List Token) (joinDocs : List (List Doc) → List Doc)
    (as : List Assembly) : Assembly :=
  together (.combine joinTokens joinDocs) as

def grouped (consistent : Bool) (offset : Int) (a : Assembly) : Assembly :=
  a.map (·.grouped consistent offset)

def enclosed (d : Delimiter) (opening closing : String) (a : Assembly) : Assembly :=
  a.map (·.enclosed d opening closing)

def statement (offset : Int) (a : Assembly) : Assembly :=
  a.map (·.statement offset)

/-- A head and lines in braces behind it. -/
def braced (head inner : Assembly) : Assembly :=
  together (fun
    | [head, inner] => .braced head inner
    | _ => {}) [head, inner]

end Assembly

/-! ## Parts of a tree -/

def assembledLifetime (name : String) : Assembly :=
  .fixed ⟨Token.lifetime name, some (text (lifetimeText name))⟩

def GenericParam.isLifetime : GenericParam → Bool
  | .lifetime .. => true
  | _ => false

/-- Parameters between angle brackets, lifetimes first. -/
def assembledParams (params : List GenericParam) (trailing : Bool) : Assembly :=
  if params.isEmpty then {}
  else
    let areLifetimes := params.map (·.isLifetime)
    let tokens (parts : List (List Token)) : List Token :=
      .mark '<' false :: (lifetimesFirst trailing (areLifetimes.zip parts) ++ [.mark '>' false])
    let docs (items : List (List Doc)) : List Doc :=
      let parts := areLifetimes.zip items
      let sorted := parts.filter (·.1) ++ parts.filter (!·.1)
      .text "<" :: .group true 0 (outdented (zeroBreak :: commaItems (sorted.map (·.2)))) ::
        text ">"
    .combine tokens docs (params.map (.part ∘ .param))

/-! ## Lists -/

/-- Things with plus signs between them. -/
def assembledSum (trailing : Bool) (joinDocs : List (List Doc) → List Doc) (as : List Assembly) :
    Assembly :=
  .combine (withPluses trailing) joinDocs as

/-- Elements with breaks between brackets that are written outside. -/
def listDocs (items : List (List Doc)) : List Doc :=
  outdented (zeroBreak :: if items.isEmpty then [] else commaItems items)

/-- Elements of a body, each on a line of its own with a comma behind it. -/
def assembledLines (trailing : Bool) (as : List Assembly) : Assembly :=
  .combine (withCommas trailing) (fun items => items.flatMap (· ++ [.text ",", hardBreak])) as

/-! ## Conditions -/

/-- How the conditions on parameters are set apart from each other and what stands behind them. -/
structure ConditionStyle where
  onLines : Bool
  /-- Whether a semicolon ends the last one. -/
  ends : Bool

/-- The conditions on parameters, and whether a comma follows the last. -/
structure Conditions where
  items : List Assembly := []
  trailing : Bool := false

def Conditions.docs (style : ConditionStyle) (items : List (List Doc)) : List Doc :=
  if items.isEmpty then text (if style.ends then ";" else " ")
  else
    let apart : Layout.Break := { blanks := if style.onLines then Layout.unfitting else 1 }
    let outside : Doc := .line { apart with offset := -4 }
    let inner := items.map (· ++ text ",")
    let last := if style.ends then (items.getLast?.getD []) ++ text ";"
      else (inner.getLast?.getD []) ++ [outside]
    outside :: .text "where" :: (inner.dropLast.flatMap (.line apart :: ·) ++ .line apart :: last)

/-- The conditions behind a head. A semicolon that ends them is one of the tokens. -/
def Conditions.assembled (style : ConditionStyle) (c : Conditions) : Assembly :=
  let start := if c.items.isEmpty then [] else [Token.word "where"]
  let ending := if style.ends then [.mark ';' false] else []
  (Assembly.combine (withCommas c.trailing) (Conditions.docs style) c.items).map fun w =>
    { w with tokens := start ++ w.tokens ++ ending }

end SchemaBindings.Code
