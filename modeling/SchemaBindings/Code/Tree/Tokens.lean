import SchemaBindings.Code.Tree

/-!
The tokens of paths, types, expressions and patterns, in the order in which they are written.
Lifetimes among the arguments of a path come before its other arguments.
-/

namespace SchemaBindings.Code

/-! ## Lists of tokens -/

/-- Tokens with commas between them, and one more at the end if asked for. -/
def withCommas (trailing : Bool) : List (List Token) → List Token
  | [] => []
  | [ts] => if trailing then ts ++ [.comma] else ts
  | ts :: u :: rest => ts ++ .comma :: withCommas trailing (u :: rest)

def withPluses (trailing : Bool) : List (List Token) → List Token
  | [] => []
  | [ts] => if trailing then ts ++ [.mark '+' false] else ts
  | ts :: u :: rest => ts ++ .mark '+' false :: withPluses trailing (u :: rest)

def doubleColon : List Token := Token.operator "::"

/-- Parts with `::` between them. -/
def withDoubleColons : List (List Token) → List Token
  | [] => []
  | [ts] => ts
  | ts :: u :: rest => ts ++ doubleColon ++ withDoubleColons (u :: rest)

/-- Parts with bars between them. -/
def withBars : List (List Token) → List Token
  | [] => []
  | [ts] => ts
  | ts :: u :: rest => ts ++ .mark '|' false :: withBars (u :: rest)

/-- Every part with the comma behind it: the last one has one only if it is trailing. -/
def withOwnCommas (trailing : Bool) : List (Bool × List Token) → List (Bool × List Token)
  | [] => []
  | [(isLifetime, ts)] => [(isLifetime, if trailing then ts ++ [.comma] else ts)]
  | (isLifetime, ts) :: p :: rest =>
    (isLifetime, ts ++ [.comma]) :: withOwnCommas trailing (p :: rest)

/-- Arguments, of which lifetimes come first; each takes its comma along, and where it has none but
others follow, one is added. -/
def lifetimesFirst (trailing : Bool) (parts : List (Bool × List Token)) : List Token :=
  let endsBare := !trailing && parts.getLast?.any (·.1)
  let parts := withOwnCommas trailing parts
  let first := (parts.filter (·.1)).flatMap (·.2)
  let second := (parts.filter (!·.1)).flatMap (·.2)
  first ++ (if endsBare && !second.isEmpty then [.comma] else []) ++ second

/-! ## Small parts -/

/-- A literal, whose sign is a token of its own. -/
def literalTokens (text : String) : List Token :=
  match text.toList with
  | '-' :: magnitude => [.mark '-' false, .literal (String.ofList magnitude)]
  | _ => [.literal text]

def labelTokens : Option String → List Token
  | none => []
  | some name => Token.lifetime name ++ [.mark ':' false]

def jumpTokens (word : String) (label : Option String) : List Token :=
  .word word :: (label.map Token.lifetime).getD []

def rangeTokens (isClosed : Bool) : List Token :=
  Token.operator (if isClosed then "..=" else "..")

def macroTokens (delimiter : Delimiter) (inner : List Token) : List Token :=
  [.mark '!' false, .group delimiter inner]

def Captured.tokens (c : Captured) : List Token :=
  if c.isLifetime then Token.lifetime c.name else [.word c.name]

def Borrow.tokens : Borrow → List Token
  | .shared => [.mark '&' false]
  | .mutable => [.mark '&' false, .word "mut"]
  | .rawConst => [.mark '&' false, .word "raw", .word "const"]
  | .rawMutable => [.mark '&' false, .word "raw", .word "mut"]

def BareForm.tokens : BareForm → List Token
  | .infer => [.word "_"]
  | .fullRange => rangeTokens false
  | .jump word label => jumpTokens word label

/-- The name or the place of a field. -/
def memberTokens (member : String) : List Token :=
  if member.toList.head?.any Char.isDigit then [.literal member] else [.word member]

/-- What is made of the tokens of a part. -/
def UnaryForm.tokens (inner : List Token) : UnaryForm → List Token
  | .borrow kind => kind.tokens ++ inner
  | .operator c => .mark c false :: inner
  | .paren => [.group .paren inner]
  | .propagate => inner ++ [.mark '?' false]
  | .await => inner ++ [.mark '.' false, .word "await"]
  | .field member => inner ++ .mark '.' false :: memberTokens member
  | .jump word label => jumpTokens word label ++ inner
  | .rangeFrom => inner ++ rangeTokens false
  | .rangeTo isClosed => rangeTokens isClosed ++ inner

def BinaryForm.tokens (left right : List Token) : BinaryForm → List Token
  | .operator o => left ++ Token.operator o.text ++ right
  | .range isClosed => left ++ rangeTokens isClosed ++ right
  | .index => left ++ [.group .bracket right]
  | .repetition => [.group .bracket (left ++ .mark ';' false :: right)]

def ListForm.delimiter : ListForm → Delimiter
  | .tuple => .paren
  | .array => .bracket

def GenericArg.isLifetime : GenericArg → Bool
  | .lifetime _ => true
  | _ => false

/-- A path into an implementation, from the tokens of its type and of its segments. -/
def qualifiedTokens (self : List Token) (position : Nat) (leading : Bool)
    (segments : List (List Token)) : List Token :=
  let trait := if position = 0 then []
    else .word "as" :: ((if leading then doubleColon else []) ++
      withDoubleColons (segments.take position))
  .mark '<' false :: (self ++ trait ++ .mark '>' false :: doubleColon ++
    withDoubleColons (segments.drop position))

mutual

/-- The tokens between the brackets of an attribute. -/
def Mark.inner : Mark → List Token
  | .mk tokens none => tokens
  | .mk tokens (some e) => tokens ++ .mark '=' false :: e.tokens

/-- Attributes in front of what they are about. -/
def marksTokens : List Mark → List Token
  | [] => []
  | m :: rest => .mark '#' false :: .group .bracket m.inner :: marksTokens rest

/-- Attributes of what encloses them. -/
def innerMarksTokens : List Mark → List Token
  | [] => []
  | m :: rest =>
    .mark '#' false :: .mark '!' false :: .group .bracket m.inner :: innerMarksTokens rest

def Path.tokens : Path → List Token
  | .mk leading segments =>
    (if leading then doubleColon else []) ++ withDoubleColons (segmentsTokens segments)

def segmentsTokens : List Segment → List (List Token)
  | [] => []
  | s :: rest => s.tokens :: segmentsTokens rest

def Segment.tokens : Segment → List Token
  | .mk ident args => .word ident.text :: args.tokens

def PathArgs.tokens : PathArgs → List Token
  | .none => []
  | .angle turbofish args trailing =>
    (if turbofish then doubleColon else []) ++ .mark '<' false ::
      (lifetimesFirst trailing (genericArgsTokens args) ++ [.mark '>' false])
  | .callable inputs trailing output =>
    .group .paren (withCommas trailing (typesTokens inputs)) :: returnTokens output

def genericArgsTokens : List GenericArg → List (Bool × List Token)
  | [] => []
  | a :: rest => (a.isLifetime, a.tokens) :: genericArgsTokens rest

def GenericArg.tokens : GenericArg → List Token
  | .lifetime name => Token.lifetime name
  | .type t => t.tokens
  | .const e => e.tokens
  | .assocType ident args t => .word ident.text :: (args.tokens ++ .mark '=' false :: t.tokens)
  | .assocConst ident args e => .word ident.text :: (args.tokens ++ .mark '=' false :: e.tokens)
  | .constraint ident args bounds trailing =>
    .word ident.text ::
      (args.tokens ++ .mark ':' false :: withPluses trailing (boundsTokens bounds))

def genericParamsTokens : List GenericParam → List (List Token)
  | [] => []
  | p :: rest => p.tokens :: genericParamsTokens rest

def GenericParam.tokens : GenericParam → List Token
  | .lifetime marks name bounds trailing =>
    marksTokens marks ++ Token.lifetime name ++
      (if bounds.isEmpty then []
        else .mark ':' false :: withPluses trailing (bounds.map Token.lifetime))
  | .type marks ident bounds trailing default =>
    let own := match boundsTokens bounds with
      | [] => []
      | bs => .mark ':' false :: withPluses trailing bs
    let preset := match default with
      | none => []
      | some t => .mark '=' false :: t.tokens
    marksTokens marks ++ .word ident.text :: (own ++ preset)
  | .const marks ident t default =>
    let preset := match default with
      | none => []
      | some e => .mark '=' false :: e.tokens
    marksTokens marks ++ [.word "const", .word ident.text, .mark ':' false] ++ t.tokens ++ preset

def Quantifier.tokens : Quantifier → List Token
  | .none => []
  | .forAll params trailing =>
    [.word "for", .mark '<' false] ++ withCommas trailing (genericParamsTokens params) ++
      [.mark '>' false]

def returnTokens : Option Ty → List Token
  | none => []
  | some t => Token.operator "->" ++ t.tokens

def typesTokens : List Ty → List (List Token)
  | [] => []
  | t :: rest => t.tokens :: typesTokens rest

def Ty.tokens : Ty → List Token
  | .path p => p.tokens
  | .applied p args =>
    p.tokens ++ .mark '<' false :: (withCommas false (typesTokens args) ++ [.mark '>' false])
  | .qualified self position (.mk leading segments) =>
    qualifiedTokens self.tokens position leading (segmentsTokens segments)
  | .reference lifetime isMut t =>
    .mark '&' false :: ((lifetime.map Token.lifetime).getD [] ++
      (if isMut then [.word "mut"] else []) ++ t.tokens)
  | .pointer isMut t => .mark '*' false :: .word (if isMut then "mut" else "const") :: t.tokens
  | .slice t => [.group .bracket t.tokens]
  | .array t length => [.group .bracket (t.tokens ++ .mark ';' false :: length.tokens)]
  | .tuple types trailing => [.group .paren (withCommas trailing (typesTokens types))]
  | .paren t => [.group .paren t.tokens]
  | .never => [.mark '!' false]
  | .infer => [.word "_"]
  | .function quantifier isUnsafe abi inputs trailing variadic output =>
    let abiTokens := match abi with
      | none => []
      | some none => [.word "extern"]
      | some (some name) => [.word "extern", .literal name]
    let more := match variadic with
      | none => []
      | some v => v.tokens
    quantifier.tokens ++ (if isUnsafe then [.word "unsafe"] else []) ++ abiTokens ++
      .word "fn" :: .group .paren (withCommas trailing (inputsTokens inputs) ++ more) ::
        returnTokens output
  | .traitObject isDyn bounds trailing =>
    (if isDyn then [.word "dyn"] else []) ++ withPluses trailing (boundsTokens bounds)
  | .implTrait bounds trailing => .word "impl" :: withPluses trailing (boundsTokens bounds)
  | .macroCall p delimiter inner => p.tokens ++ macroTokens delimiter inner
  | .verbatim tokens => tokens

def Variadic.tokens : Variadic → List Token
  | .mk marks name trailing =>
    marksTokens marks ++ (name.map fun n => [Token.word n.text, .mark ':' false]).getD [] ++
      Token.operator "..." ++ (if trailing then [.comma] else [])

def inputsTokens : List FunctionInput → List (List Token)
  | [] => []
  | i :: rest => i.tokens :: inputsTokens rest

def FunctionInput.tokens : FunctionInput → List Token
  | .mk marks name t =>
    marksTokens marks ++ (name.map fun n => [Token.word n.text, .mark ':' false]).getD [] ++
      t.tokens

def boundsTokens : List Bound → List (List Token)
  | [] => []
  | b :: rest => b.tokens :: boundsTokens rest

def Bound.tokens : Bound → List Token
  | .lifetime name => Token.lifetime name
  | .trait inParens isMaybe quantifier p =>
    let inner := quantifier.tokens ++ (if isMaybe then [.mark '?' false] else []) ++ p.tokens
    if inParens then [.group .paren inner] else inner
  | .captures params trailing =>
    .word "use" :: .mark '<' false ::
      (lifetimesFirst trailing (params.map fun c => (c.isLifetime, c.tokens)) ++
        [.mark '>' false])
  | .verbatim tokens => tokens

def exprsTokens : List Expr → List (List Token)
  | [] => []
  | e :: rest => e.tokens :: exprsTokens rest

/-- What may stand behind a word. -/
def optionalTokens (word : List Token) : Option Expr → List Token
  | none => []
  | some e => word ++ e.tokens

def Expr.tokens : Expr → List Token
  | .literal text => literalTokens text
  | .path p => p.tokens
  | .applied p args =>
    p.tokens ++ doubleColon ++
      .mark '<' false :: (withCommas false (typesTokens args) ++ [.mark '>' false])
  | .qualified self position (.mk leading segments) =>
    qualifiedTokens self.tokens position leading (segmentsTokens segments)
  | .bare form => form.tokens
  | .unary form e => form.tokens e.tokens
  | .binary form left right => form.tokens left.tokens right.tokens
  | .list form es trailing => [.group form.delimiter (withCommas trailing (exprsTokens es))]
  | .cast e t => e.tokens ++ .word "as" :: t.tokens
  | .call f args trailing => f.tokens ++ [.group .paren (withCommas trailing (exprsTokens args))]
  | .methodCall receiver name typeArgs args trailing =>
    receiver.tokens ++ [.mark '.' false, .word name.text] ++ typeArgs.tokens ++
      [.group .paren (withCommas trailing (exprsTokens args))]
  | .macroCall p delimiter inner => p.tokens ++ macroTokens delimiter inner
  | .structure head entries trailing dots rest =>
    head.tokens ++ [.group .brace (withCommas trailing (exprsTokens entries) ++
      (if dots then rangeTokens false else []) ++ optionalTokens [] rest)]
  | .entry marks member value =>
    marksTokens marks ++ memberTokens member ++ optionalTokens [.mark ':' false] value
  | .closure quantifier words params trailing output body =>
    quantifier.tokens ++ words.map .word ++
      .mark '|' false :: (withCommas trailing (patternsTokens params) ++
        .mark '|' false :: (returnTokens output ++ body.tokens))
  | .block label words body =>
    labelTokens label ++ words.map .word ++ [.group .brace (statementsTokens body)]
  | .conditional condition body otherwise =>
    .word "if" :: (condition.tokens ++ [.group .brace (statementsTokens body)] ++
      optionalTokens [.word "else"] otherwise)
  | .whileLoop label condition body =>
    labelTokens label ++ .word "while" ::
      (condition.tokens ++ [.group .brace (statementsTokens body)])
  | .forLoop label pattern source body =>
    labelTokens label ++ .word "for" :: (pattern.tokens ++ .word "in" ::
      (source.tokens ++ [.group .brace (statementsTokens body)]))
  | .choice value inner arms =>
    .word "match" ::
      (value.tokens ++
        [.group .brace (innerMarksTokens inner ++ (exprsTokens arms).flatten)])
  | .arm marks pattern guard body comma =>
    marksTokens marks ++ pattern.tokens ++ optionalTokens [.word "if"] guard ++
      Token.operator "=>" ++ body.tokens ++ (if comma then [.comma] else [])
  | .test pattern value =>
    .word "let" :: (pattern.tokens ++ .mark '=' false :: value.tokens)
  | .marked marks e => marksTokens marks ++ e.tokens
  | .verbatim tokens => tokens

def patternsTokens : List Pattern → List (List Token)
  | [] => []
  | p :: rest => p.tokens :: patternsTokens rest

def Pattern.tokens : Pattern → List Token
  | .wildcard => [.word "_"]
  | .dots => rangeTokens false
  | .variable isRef isMut name =>
    (if isRef then [.word "ref"] else []) ++ (if isMut then [.word "mut"] else []) ++
      [.word name.text]
  | .alias p inner => p.tokens ++ .mark '@' false :: inner.tokens
  | .value e => e.tokens
  | .reference isMut p => .mark '&' false :: ((if isMut then [.word "mut"] else []) ++ p.tokens)
  | .paren p => [.group .paren p.tokens]
  | .tuple ps trailing => [.group .paren (withCommas trailing (patternsTokens ps))]
  | .slice ps trailing => [.group .bracket (withCommas trailing (patternsTokens ps))]
  | .variant head ps trailing =>
    head.tokens ++ [.group .paren (withCommas trailing (patternsTokens ps))]
  | .structure head entries trailing rest =>
    let dots := match rest with
      | none => []
      | some marks => marksTokens marks ++ rangeTokens false
    head.tokens ++ [.group .brace (withCommas trailing (patternsTokens entries) ++ dots)]
  | .entry marks member p =>
    marksTokens marks ++ (member.map fun m => memberTokens m ++ [.mark ':' false]).getD [] ++
      p.tokens
  | .alternatives leading ps =>
    (if leading then [.mark '|' false] else []) ++ withBars (patternsTokens ps)
  | .typed p t => p.tokens ++ .mark ':' false :: t.tokens
  | .marked marks p => marksTokens marks ++ p.tokens
  | .verbatim tokens => tokens

def statementsTokens : List Statement → List Token
  | [] => []
  | s :: rest => s.tokens ++ statementsTokens rest

def Statement.tokens : Statement → List Token
  | .binding marks pattern value otherwise =>
    marksTokens marks ++ .word "let" :: (pattern.tokens ++
      optionalTokens [.mark '=' false] value ++ optionalTokens [.word "else"] otherwise ++
      [.mark ';' false])
  | .effect e => e.tokens ++ [.mark ';' false]
  | .result e => e.tokens
  | .macroCall marks p delimiter inner semicolon =>
    marksTokens marks ++ p.tokens ++ macroTokens delimiter inner ++
      (if semicolon then [.mark ';' false] else [])
  | .item parts assemble => (assemble ((partsTokens parts).map .ofTokens)).tokens
  | .innerMark m => [.mark '#' false, .mark '!' false, .group .bracket m.inner]
  | .empty => [.mark ';' false]

def partsTokens : List Part → List (List Token)
  | [] => []
  | p :: rest => p.tokens :: partsTokens rest

def Part.tokens : Part → List Token
  | .marks marks => marksTokens marks
  | .innerMarks marks => innerMarksTokens marks
  | .param p => p.tokens
  | .quantifier q => q.tokens
  | .path p => p.tokens
  | .type t => t.tokens
  | .bound b => b.tokens
  | .expr e => e.tokens
  | .pattern p => p.tokens
  | .statements body => statementsTokens body

end

def Path.spacedText (p : Path) : String :=
  spaced p.tokens

def Ty.spacedText (t : Ty) : String :=
  spaced t.tokens

end SchemaBindings.Code
