import SchemaBindings.Code.Print.Attribute
import SchemaBindings.Code.Print.Macro
import SchemaBindings.Code.Print.Shape
import SchemaBindings.Code.Tree.Tokens

/-!
The layout of paths, types, expressions, patterns and statements.
-/

namespace SchemaBindings.Code

open Layout (Doc)
open Print

/-- Whether arguments are written, and whether `::` stands before them. -/
inductive PathKind where
  | simple
  | type
  | value
deriving DecidableEq

def lifetimeText (name : String) : String :=
  "'" ++ name

def labelText : Option String → String
  | none => ""
  | some name => lifetimeText name ++ ": "

def jumpText (word : String) (label : Option String) : String :=
  word ++ (label.map fun name => " " ++ lifetimeText name).getD ""

def nameText : Option Ident → List Doc
  | none => []
  | some name => text (name.text ++ ": ")

def Borrow.text : Borrow → String
  | .shared => "&"
  | .mutable => "&mut "
  | .rawConst => "&raw const "
  | .rawMutable => "&raw mut "

def rangeText (isClosed : Bool) : String :=
  if isClosed then "..=" else ".."

def capturedText (c : Captured) : String :=
  if c.isLifetime then lifetimeText c.name else c.name

/-- The words before a body and the blank behind each of them. -/
def wordsText (words : List String) : String :=
  String.join (words.map (· ++ " "))

/-- A chain of dots; inside a longer chain it belongs to that one's group. -/
def chained (position : Position) (docs : List Doc) : List Doc :=
  if position.isReceiver then docs else [.group true 4 docs]

/-- An expression that is no chain; inside one it is not indented further. -/
def alone (position : Position) (docs : List Doc) : List Doc :=
  if position.isReceiver then [.group true (-4) docs] else docs

/-- The break before a dot, unless the chain begins with a short variable at the start of a
line. -/
def chainBreak (startsLine isShort : Bool) : List Doc :=
  if startsLine && isShort then [] else [zeroBreak]

/-- A left operand, which is not indented, and what follows it. -/
def operation (left : List Doc) (operator : String) (right : List Doc) : List Doc :=
  [.group false 4 (.group false (-4) left :: space :: .text (operator ++ " ") :: right)]

/-- An element alone between parentheses, with a comma behind it. -/
def single (comma : Bool) (element : List Doc) : List Doc :=
  [.group true 4 (outdented (zeroBreak :: (element ++ (if comma then text "," else []) ++
    [zeroBreak])))]

/-- Elements of a structure, which has blanks inside its braces. -/
def fieldItems (items : List (List Doc)) (rest : List Doc) : List Doc :=
  if items.isEmpty && rest.isEmpty then []
  else
    let last := if rest.isEmpty then [Doc.line { blanks := 1, before := "," }]
      else (if items.isEmpty then [] else [.text ",", space]) ++ rest ++ [space]
    outdented (space :: (joined items ++ last))

/-- Arguments of which lifetimes come first. -/
def lifetimesFirstItems (args : List GenericArg) (items : List (List Doc)) : List (List Doc) :=
  let parts := args.zip items
  (parts.filter (·.1.isLifetime) ++ parts.filter (!·.1.isLifetime)).map (·.2)

/-- A condition and what separates it from the brace behind it. -/
def conditionGroup (isOpenEnded : Bool) (condition : List Doc) : List Doc :=
  [.group true 0 (condition ++ if isOpenEnded then [space] else text " ")]

/-- Whether alternatives are few and short enough to share a line with the next. -/
def isPlainAlternative : Pattern → Bool
  | .value (.literal _) | .wildcard => true
  | _ => false

/-- A constant argument, in braces if it needs them. -/
def constantDocs (isBare : Bool) (docs : List Doc) : List Doc :=
  if isBare then docs else .text "\x7b" :: (docs ++ text "\x7d")

/-- An expression that gets braces if it does not stand on the line of what is before it, or
parentheses if it cannot be a statement; `closing` follows those, and `inside` the expression
without them. -/
def wrapped (body : Expr) (docs : List Doc) (closing inside : String) : Doc :=
  let (first, last) : Layout.Break × Layout.Break :=
    if body.isStatement then
      ({ before := "\x7b" }, { before := if body.addsSemicolon then ";" else "", after := "\x7d" })
    else ({ before := "(" }, { after := ")" ++ closing })
  .group true 4 (outdented (.line first :: (docs ++ [.line { last with inside }])))

/-- The body of an arm. -/
def armDocs (body : Expr) (docs : List Doc) : List Doc :=
  [neverBreak, wrapped body docs "," (if body.endsStatement then "" else ",")]

/-- A body in braces, by its statements and their layout. -/
def smallBlock (body : List Statement) (docs : List Doc) : List Doc :=
  if body.isEmpty then text "\x7b\x7d"
  else .text "\x7b" :: (outdented (space :: docs) ++ text "\x7d")

mutual

def Mark.print (style : MarkStyle) : Mark → List Doc
  | .mk tokens none => markDocs style tokens []
  | .mk tokens (some e) => markDocs style tokens (.text " = " :: e.print .inner)

/-- Attributes of what follows. -/
def printMarks : List Mark → List Doc
  | [] => []
  | m :: rest => m.print outerMark ++ printMarks rest

/-- Attributes of what encloses them. -/
def printInnerMarks : List Mark → List Doc
  | [] => []
  | m :: rest => m.print innerMark ++ printInnerMarks rest

def Path.print (kind : PathKind) : Path → List Doc
  | .mk leading segments =>
    (if leading then text "::" else []) ++ separated "::" (printSegments kind segments)

def printSegments (kind : PathKind) : List Segment → List (List Doc)
  | [] => []
  | s :: rest => s.print kind :: printSegments kind rest

def Segment.print (kind : PathKind) : Segment → List Doc
  | .mk ident args => .text ident.text :: args.print kind

def PathArgs.print (kind : PathKind) : PathArgs → List Doc
  | .none => []
  | .angle _ args _ =>
    if args.isEmpty || kind = .simple then []
    else
      (if kind = .value then text "::" else []) ++
        .text "<" :: (commaList (lifetimesFirstItems args (printGenericArgs args)) ++ text ">")
  | .callable inputs _ output =>
    let list := if inputs.isEmpty then [zeroBreak] else zeroBreak :: commaItems (printTypes inputs)
    [.group true 4 (.text "(" :: (outdented list ++ .text ")" :: printOutput output))]

def printGenericArgs : List GenericArg → List (List Doc)
  | [] => []
  | a :: rest => a.print :: printGenericArgs rest

def GenericArg.print : GenericArg → List Doc
  | .lifetime name => text (lifetimeText name)
  | .type t => t.print
  | .const e => constantDocs e.isBare (e.print .inner)
  | .assocType ident args t => .text ident.text :: (args.print .type ++ .text " = " :: t.print)
  | .assocConst ident args e =>
    .text ident.text :: (args.print .type ++ .text " = " :: e.print .inner)
  | .constraint ident args bounds _ =>
    .text ident.text :: (args.print .type ++ [.group false 4 (colonItems (printBounds bounds))])

def printGenericParams : List GenericParam → List (List Doc)
  | [] => []
  | p :: rest => p.print :: printGenericParams rest

def GenericParam.print : GenericParam → List Doc
  | .lifetime marks name bounds _ =>
    let sum := if bounds.isEmpty then "" else ": " ++ " + ".intercalate (bounds.map lifetimeText)
    printMarks marks ++ text (lifetimeText name ++ sum)
  | .type marks ident bounds _ preset =>
    let default := match preset with
      | none => []
      | some t => space :: .text "= " :: t.print
    printMarks marks ++
      [.text ident.text, .group false 4 (colonItems (printBounds bounds) ++ default)]
  | .const marks ident t preset =>
    let default := match preset with
      | none => []
      | some e => .text " = " :: constantDocs e.isBare (e.print .inner)
    printMarks marks ++ .text ("const " ++ ident.text ++ ": ") :: (t.print ++ default)

def Quantifier.print : Quantifier → List Doc
  | .none => []
  | .forAll params _ => .text "for<" :: (separated ", " (printGenericParams params) ++ text "> ")

def printOutput : Option Ty → List Doc
  | none => []
  | some t => .text " -> " :: t.print

def printTypes : List Ty → List (List Doc)
  | [] => []
  | t :: rest => t.print :: printTypes rest

def Ty.print : Ty → List Doc
  | .path p => p.print .type
  | .applied p args => p.print .type ++ .text "<" :: (commaList (printTypes args) ++ text ">")
  | .qualified self position (.mk leading segments) =>
    let names := printSegments .type segments
    let trait := if position = 0 then []
      else .text (if leading then " as ::" else " as ") :: separated "::" (names.take position)
    let rest := (names.drop position).flatMap fun s => .text "::" :: s
    .text "<" :: (self.print ++ trait ++ .text ">" :: rest)
  | .reference lifetime isMut t =>
    .text ("&" ++ (lifetime.map (lifetimeText · ++ " ")).getD "" ++ if isMut then "mut " else "") ::
      t.print
  | .pointer isMut t => .text (if isMut then "*mut " else "*const ") :: t.print
  | .slice t => .text "[" :: (t.print ++ text "]")
  | .array t length => .text "[" :: (t.print ++ .text "; " :: (length.print .inner ++ text "]"))
  | .tuple types _ =>
    let inner := match printTypes types with
      | [t] => single true t
      | ts => commaList ts
    .text "(" :: (inner ++ text ")")
  | .paren t => .text "(" :: (t.print ++ text ")")
  | .never => text "!"
  | .infer => text "_"
  | .function quantifier isUnsafe abi inputs _ variadic output =>
    let abiText := match abi with
      | none => ""
      | some none => "extern "
      | some (some name) => "extern " ++ name ++ " "
    let items := printInputs inputs
    let list := match variadic with
      | none => commaList items
      | some v =>
        [.group true 4 (outdented (zeroBreak :: (joined (items ++ [v.print]) ++ [zeroBreak])))]
    quantifier.print ++ .text ((if isUnsafe then "unsafe " else "") ++ abiText ++ "fn(") ::
      (list ++ .text ")" :: printOutput output)
  | .traitObject _ bounds _ => .text "dyn " :: separated " + " (printBounds bounds)
  | .implTrait bounds _ => .text "impl " :: separated " + " (printBounds bounds)
  | .macroCall p delimiter inner =>
    p.print .simple ++ .text "!" :: macroArgs delimiter inner
  | .verbatim tokens => text (spaced tokens)

def Variadic.print : Variadic → List Doc
  | .mk marks name _ => printMarks marks ++ nameText name ++ text "..."

def printInputs : List FunctionInput → List (List Doc)
  | [] => []
  | i :: rest => i.print :: printInputs rest

def FunctionInput.print : FunctionInput → List Doc
  | .mk marks name t => printMarks marks ++ nameText name ++ t.print

def printBounds : List Bound → List (List Doc)
  | [] => []
  | b :: rest => b.print :: printBounds rest

def Bound.print : Bound → List Doc
  | .lifetime name => text (lifetimeText name)
  | .trait inParens isMaybe quantifier p =>
    let inner := quantifier.print ++ (if isMaybe then text "?" else []) ++ p.print .type
    if inParens then .text "(" :: (inner ++ text ")") else inner
  | .captures params _ => text ("use<" ++ ", ".intercalate (params.map capturedText) ++ ">")
  | .verbatim tokens => text (spaced tokens)

def printExprs : List Expr → List (List Doc)
  | [] => []
  | e :: rest => e.print .inner :: printExprs rest

/-- The arguments of a call. -/
def callArgs : List Expr → List Doc
  | [] => []
  | [e] => if e.isBlockLike then e.print .inner else commaList [e.print .inner]
  | e :: f :: rest => commaList (e.print .inner :: f.print .inner :: printExprs rest)

/-- Arms of a choice, each on lines of its own. -/
def printArms : List Expr → List Doc
  | [] => []
  | a :: rest => a.print .inner ++ hardBreak :: printArms rest

/-- The body of an arm, given its documents at the start of a line. What is alone in braces stands
without them if there is room for it. -/
def armBody (docs : List Doc) : Expr → List Doc
  | .block none [] [.result e] => armBody (e.print .lineStart) e
  | .block label [] body =>
    .text (labelText label ++ "\x7b") :: neverBreak :: (linesGroup (printStatements body) ++
      text "\x7d")
  | .list .tuple [] _ => text "\x7b\x7d"
  | e => armDocs e docs

/-- The statements of a body that stays on its line if it is a single expression. -/
def smallBody : List Statement → List Doc
  | [] => []
  | [.result e] => [.group false 0 (e.print .lineStart), space]
  | .innerMark m :: rest => m.print innerMark ++ smallBody rest
  | s :: rest => s.print ++ printStatements rest

/-- What follows the body of a condition. -/
def printElse : Option Expr → List Doc
  | none => []
  | some (.conditional c body otherwise) =>
    .text " else if " :: .group true (-4) (conditionGroup c.isOpenEnded (c.print .inner)) ::
      (smallBlock body (smallBody body) ++ printElse otherwise)
  | some (.block _ _ body) => .text " else " :: smallBlock body (smallBody body)
  | some e => .text " else " :: e.print .inner

def printOptional (before : String) : Option Expr → List Doc
  | none => []
  | some e => .text before :: e.print .inner

def Expr.print (position : Position) : Expr → List Doc
  | .unary .await e =>
    chained position (e.print (.receiver position.startsLine) ++
      chainBreak position.startsLine e.isShortVariable ++ text ".await")
  | .unary (.field member) e =>
    chained position (e.print (.receiver position.startsLine) ++
      chainBreak position.startsLine e.isShortVariable ++ text ("." ++ member))
  | .methodCall e name typeArgs args _ =>
    let offset := if position = .lineStart && e.isShortVariable then -4 else 0
    chained position (e.print (.receiver position.startsLine) ++
      chainBreak position.startsLine e.isShortVariable ++ .text ("." ++ name.text) ::
      (typeArgs.print .value ++
        [.group true offset (.text "(" :: (callArgs args ++ text ")"))]))
  | .call f args _ => f.print position.ofFunction ++ .text "(" :: (callArgs args ++ text ")")
  | .unary .propagate e => e.print position ++ text "?"
  | .binary .index e index => e.print position ++ .text "[" :: (index.print .inner ++ text "]")
  | .literal w => alone position (text w)
  | .path p => alone position (p.print .value)
  | .applied p args =>
    alone position (p.print .value ++ .text "::<" :: (commaList (printTypes args) ++ text ">"))
  | .qualified self place (.mk leading segments) =>
    let trait := if place = 0 then []
      else .text (if leading then " as ::" else " as ") ::
        separated "::" ((printSegments .type segments).take place)
    let rest := ((printSegments .value segments).drop place).flatMap fun s => .text "::" :: s
    alone position (.text "<" :: (self.print ++ trait ++ .text ">" :: rest))
  | .bare .infer => alone position (text "_")
  | .bare .fullRange => alone position (text "..")
  | .bare (.jump word label) => alone position (text (jumpText word label))
  | .unary (.borrow kind) e => alone position (.text kind.text :: e.print .inner)
  | .unary (.operator c) e => alone position (.text (String.singleton c) :: e.print .inner)
  | .unary .paren e => alone position (.text "(" :: (e.print .inner ++ text ")"))
  | .unary (.jump word label) e =>
    alone position (.text (jumpText word label ++ " ") :: e.print .inner)
  | .unary .rangeFrom e => alone position (e.print .inner ++ text "..")
  | .unary (.rangeTo isClosed) e => alone position (.text (rangeText isClosed) :: e.print .inner)
  | .binary (.operator (.assign none)) left right =>
    alone position [.group false 0 (left.print .inner ++ .text " = " :: neverBreak ::
      right.print .inner)]
  | .binary (.operator o) left right =>
    alone position (operation (left.print .inner) o.text (right.print .inner))
  | .binary (.range isClosed) left right =>
    alone position (left.print .inner ++ .text (rangeText isClosed) :: right.print .inner)
  | .binary .repetition e length =>
    alone position (.text "[" :: (e.print .inner ++ .text "; " :: (length.print .inner ++
      text "]")))
  | .list .tuple es _ =>
    let inner := match printExprs es with
      | [e] => single true e
      | items => commaList items
    alone position (.text "(" :: (inner ++ text ")"))
  | .list .array es _ =>
    let items := printExprs es
    alone position (if es.isEmpty then text "[]"
      else if es.all Expr.isPlainLiteral then
        [.group true 4 (.text "[" :: (outdented [zeroBreak, .group false 0 (joined items),
          lastComma] ++ text "]"))]
      else .text "[" :: (commaList items ++ text "]"))
  | .cast e t => alone position (operation (e.print .inner) "as" t.print)
  | .macroCall p delimiter inner =>
    alone position (p.print .simple ++ .text "!" :: macroArgs delimiter inner)
  | .structure head entries _ _ rest =>
    let body := .group false (-4) (head.print .inner) :: .text " \x7b" ::
      fieldItems (printExprs entries) (printOptional ".." rest)
    let width := Layout.widths body
    alone position (.group true 4 (if 34 < width then body ++ [.strut] else body) :: text "\x7d")
  | .entry marks member none => printMarks marks ++ text member
  | .entry marks member (some e) =>
    printMarks marks ++ [.text (member ++ ": "), .group false 0 (e.print .inner)]
  | .closure quantifier words params _ none body =>
    let start := if params.isEmpty then [] else zeroBreak :: joined (printPatterns params)
    let inner := if !body.takesBraces then body.print .inner
      else [wrapped body (body.print .inner) "" ""]
    alone position [.group false 0 (quantifier.print ++ text (wordsText words) ++
      .group true 4 (.text "|" :: (start ++ .text "|" :: outdented [space])) ::
      neverBreak :: inner)]
  | .closure quantifier words params _ (some output) body =>
    let start := if params.isEmpty then []
      else outdented (zeroBreak :: commaItems (printPatterns params))
    alone position [.group false 0 (quantifier.print ++ text (wordsText words) ++
      .group true 4 (.text "|" :: (start ++ text "|")) :: .text " -> " ::
      (output.print ++ .text " " :: neverBreak :: body.print .inner))]
  | .block label ["loop"] body =>
    alone position (.text (labelText label ++ "loop \x7b") ::
      (linesGroup (printStatements body) ++ text "\x7d"))
  | .block label words body =>
    alone position [.text (labelText label ++ wordsText words),
      .group true 4 (smallBlock body (smallBody body))]
  | .conditional c body otherwise =>
    let start := [.text "if ", .group true (-4) (conditionGroup c.isOpenEnded (c.print .inner))]
    let inner := if otherwise.isSome then smallBlock body (smallBody body) ++ printElse otherwise
      else .text "\x7b" :: (lines (printStatements body) ++ text "\x7d")
    alone position [.group true 4 (start ++ inner)]
  | .whileLoop label c body =>
    alone position (.text (labelText label ++ "while ") ::
      (conditionGroup c.isOpenEnded (c.print .inner) ++ .text "\x7b" :: neverBreak ::
        (linesGroup (printStatements body) ++ text "\x7d")))
  | .forLoop label pattern source body =>
    alone position [.group false 0 (.text (labelText label ++ "for ") :: (pattern.print ++
      .text " in " :: neverBreak :: (conditionGroup source.isOpenEnded (source.print .inner) ++
        .text "\x7b" :: neverBreak :: (linesGroup (printStatements body) ++ text "\x7d"))))]
  | .choice value inner arms =>
    alone position [.group false 0 (.text "match " ::
      (conditionGroup value.isOpenEnded (value.print .inner) ++ .text "\x7b" :: neverBreak ::
        (linesGroup (printInnerMarks inner ++ printArms arms) ++ text "\x7d")))]
  | .arm marks pattern guard body _ =>
    printMarks marks ++ [.group false 0 (pattern.print ++ printOptional " if " guard ++
      .text " => " :: armBody (body.print .lineStart) body)]
  | .test pattern value =>
    alone position [.group false 0 [.text "let ", .group false 0 pattern.print, .text " = ",
      neverBreak, .group false 0 (value.print .inner)]]
  | .marked marks e => alone position (printMarks marks ++ e.print .inner)
  | .verbatim tokens => text (spaced tokens)

def printPatterns : List Pattern → List (List Doc)
  | [] => []
  | p :: rest => p.print :: printPatterns rest

/-- Patterns with bars between them. -/
def printAlternatives : List Pattern → List Doc
  | [] => []
  | p :: rest => p.print ++ (if rest.isEmpty then [] else [space, .text "| "]) ++
      printAlternatives rest

def Pattern.print : Pattern → List Doc
  | .wildcard => text "_"
  | .dots => text ".."
  | .variable isRef isMut name =>
    text ((if isRef then "ref " else "") ++ (if isMut then "mut " else "") ++ name.text)
  | .alias p inner => p.print ++ .text " @ " :: inner.print
  | .value e => e.print .inner
  | .reference isMut p => .text (if isMut then "&mut " else "&") :: p.print
  | .paren p => .text "(" :: (p.print ++ text ")")
  | .tuple ps trailing =>
    let inner := match printPatterns ps with
      | [p] => single trailing p
      | items => commaList items
    .text "(" :: (inner ++ text ")")
  | .slice ps _ =>
    .text "[" :: ((if ps.isEmpty then [] else commaItems (printPatterns ps)) ++ text "]")
  | .variant head ps _ =>
    head.print .inner ++ .text "(" :: (commaList (printPatterns ps) ++ text ")")
  | .structure head entries _ rest =>
    let dots := match rest with
      | none => []
      | some marks => printMarks marks ++ text ".."
    [.group true 4 (head.print .inner ++ .text " \x7b" ::
      fieldItems (printPatterns entries) dots), .text "\x7d"]
  | .entry marks member p =>
    printMarks marks ++ (member.map fun m => text (m ++ ": ")).getD [] ++ p.print
  | .alternatives _ ps => [.group (!ps.all isPlainAlternative) 0 (printAlternatives ps)]
  | .typed p t => p.print ++ .text ": " :: t.print
  | .marked marks p => printMarks marks ++ p.print
  | .verbatim tokens => text (spaced tokens)

def printStatements : List Statement → List Doc
  | [] => []
  | s :: rest => s.print ++ printStatements rest

def Statement.print : Statement → List Doc
  | .binding marks pattern none _ =>
    printMarks marks ++ [.group false 0 (.text "let " :: (pattern.print ++ text ";")), hardBreak]
  | .binding marks pattern (some e) otherwise =>
    let start := .text "let " :: (pattern.print ++ .text " = " :: neverBreak :: e.print .inner)
    let rest := match otherwise with
      | none => [.group false 0 (start ++ text ";")]
      | some (.block _ _ body) =>
        [.group false 0 (start ++ [space, .text "else "]), neverBreak,
          .group true 4 (smallBlock body (smallBody body)), .text ";"]
      | some e =>
        [.group false 0 (start ++ [space, .text "else "]), neverBreak,
          .group true 4 (e.print .inner), .text ";"]
    printMarks marks ++ rest ++ [hardBreak]
  | .effect e =>
    [.group false 0 (e.print .lineStart ++ if e.dropsSemicolon then [] else text ";"), hardBreak]
  | .result e =>
    [.group false 0 (e.print .lineStart ++ if e.addsSemicolon then text ";" else []), hardBreak]
  | .macroCall marks p delimiter inner _ =>
    printMarks marks ++ p.print .simple ++ .text "!" :: (macroArgs delimiter inner ++
      (if delimiter = .brace then [] else text ";") ++ [hardBreak])
  | .item parts assemble => (assemble ((printParts parts).map .ofDocs)).layout.getD []
  | .innerMark m => m.print innerMark
  | .empty => []

def printParts : List Part → List (List Doc)
  | [] => []
  | p :: rest => p.print :: printParts rest

def Part.print : Part → List Doc
  | .marks marks => printMarks marks
  | .innerMarks marks => printInnerMarks marks
  | .param p => p.print
  | .quantifier q => q.print
  | .path p => p.print .type
  | .type t => t.print
  | .bound b => b.print
  | .expr e => e.print .inner
  | .pattern p => p.print
  | .statements body => printStatements body

end

end SchemaBindings.Code
