import SchemaBindings.Code.Print.Basic
import SchemaBindings.Code.Token

/-!
The layout of what a macro is called with, and of the rules that define one. Tokens are set apart by
breaks unless they look as if they belonged together.
-/

namespace SchemaBindings.Code.Print

open Layout (Doc)

/-- What the tokens so far end with. -/
inductive Tail where
  | start
  | dollar
  | dollarName
  | dollarColon
  | dollarGroup
  | dollarSeparator
  | pound
  | poundBang
  | dot
  | colon
  | doubleColon
  | operand
  | bang
  | group
  | other
deriving DecidableEq

/-- The words that are no operands. -/
def nonOperands : List String :=
  ["as", "async", "await", "box", "break", "const", "continue", "crate", "dyn", "else", "enum",
   "extern", "fn", "for", "if", "impl", "in", "let", "loop", "macro", "match", "mod", "move", "mut",
   "pub", "ref", "return", "static", "struct", "super", "trait", "type", "unsafe", "use", "where",
   "while", "yield"]

/-- What a token becomes the end of, whatever stands before it, and whether it is set apart. In the
pattern of a rule dots are nothing special. -/
def apart (inPattern : Bool) (tail : Tail) : Token → Bool × Tail
  | .group .brace _ => (true, .other)
  | .group _ _ => (true, .group)
  | .word w =>
    if nonOperands.contains w then (true, .other)
    else (tail != .dot && tail != .doubleColon, .operand)
  | .literal l => (tail != .dot, if l.endsWith "." then .other else .operand)
  | .mark c joint =>
    if c = ',' || c = ';' then (false, .other)
    else if c = '.' && !inPattern then (tail != .operand && tail != .group, .dot)
    else if c = ':' && joint then (tail != .operand, .colon)
    else if c = '$' then (true, .dollar)
    else if c = '#' then (true, .pound)
    else (true, .other)

/-- Whether a token is set apart from those before it, and what it becomes the end of. -/
def step (inPattern : Bool) : Tail → Token → Bool × Tail
  | .dollar, .word _ => (false, if inPattern then .dollarName else .other)
  | .dollarName, .mark ':' false => (false, .dollarColon)
  | .dollarColon, .word _ => (false, .other)
  | .dollar, .group .paren _ => (false, .dollarGroup)
  | .dollarGroup, .mark c joint =>
    if joint then (false, .dollarGroup)
    else (false, if ['+', '*', '?'].contains c then .other else .dollarSeparator)
  | .dollarGroup, .word _ | .dollarGroup, .literal _ => (false, .dollarSeparator)
  | .dollarSeparator, .mark '+' _ | .dollarSeparator, .mark '*' _ => (false, .other)
  | .pound, .mark '!' _ => (false, .poundBang)
  | .pound, .group .bracket _ | .poundBang, .group .bracket _ => (false, .other)
  | .operand, .group .paren _ | .operand, .group .bracket _ => (false, .group)
  | .operand, .mark '!' false => (false, .bang)
  | .bang, .group .paren _ | .bang, .group .bracket _ => (false, .other)
  | .colon, .mark ':' _ => (false, .doubleColon)
  | tail, t => apart inPattern tail t

/-- Whether the next token belongs to the same operator. -/
def joinsNext : Token → Bool
  | .mark c joint => joint || c = '$'
  | _ => false

mutual

/-- The tokens after others that end in a way; `joint` says that the first belongs to the last of
those. -/
def macroTokens (inPattern : Bool) (tail : Tail) (joint : Bool) : List Token → List Doc
  | [] => []
  | t :: rest =>
    let (isApart, tail) := step inPattern tail t
    let isDot := match t with
      | .mark '.' _ => true
      | _ => false
    let between := if joint then [] else if isApart then [space] else if isDot then [zeroBreak]
      else []
    between ++ macroToken inPattern t ++ macroTokens inPattern tail (joinsNext t) rest

def macroToken (inPattern : Bool) : Token → List Doc
  | .word w => text w
  | .literal l => text l
  | .mark c _ => text (String.singleton c)
  | .group .paren inner => .text "(" :: (macroTokens inPattern .start true inner ++ text ")")
  | .group .bracket inner => .text "[" :: (macroTokens inPattern .start true inner ++ text "]")
  | .group .brace [] => text "\x7b\x7d"
  | .group .brace (t :: rest) =>
    .text "\x7b" :: space ::
      (macroTokens inPattern .start true (t :: rest) ++ [space, .text "\x7d"])

end

/-- What stands behind the exclamation mark of a macro. -/
def macroArgs (delimiter : Delimiter) (inner : List Token) : List Doc :=
  let (opening, closing, edge) := match delimiter with
    | .paren => ("(", ")", zeroBreak)
    | .bracket => ("[", "]", zeroBreak)
    | .brace => (" \x7b", "\x7d", hardBreak)
  let body := if inner.isEmpty then []
    else [Doc.group true 4
      (outdented [edge, .group false 0 (macroTokens false .start true inner), edge])]
  .text opening :: (body ++ text closing)

/-! ## Rules -/

/-- Tokens on lines of their own between brackets. -/
def ruleLines (inPattern : Bool) (edge : Doc) (inner : List Token) : List Doc :=
  if inner.isEmpty then []
  else [.group true 4 (outdented [edge, .group false 0 (macroTokens inPattern .start true inner),
    edge])]

def brackets : Delimiter → String × String
  | .paren => ("(", ")")
  | .bracket => ("[", "]")
  | .brace => ("\x7b", "\x7d")

/-- Rules with semicolons between them, each a pattern, an arrow and what it stands for. -/
def rules? : List Token → Option (List Doc)
  | [] => some []
  | .group d pattern :: .mark '=' true :: .mark '>' false :: .group _ body :: rest => do
    let (opening, closing) := brackets d
    let rule := .text opening :: (ruleLines true zeroBreak pattern ++
      .text closing :: .text " => \x7b" :: neverBreak :: (ruleLines false hardBreak body ++
        [.text "\x7d", .text ";", hardBreak]))
    match rest with
    | [] => return rule
    | .mark ';' false :: rest => return rule ++ (← rules? rest)
    | _ => none
  | _ => none

/-- The definition of a macro, if its rules are well-formed. -/
def macroDefinition? (name : String) (rules : List Token) : Option (List Doc) := do
  return .text ("macro_rules! " ++ name ++ " \x7b") ::
    (linesGroup (← rules? rules) ++ text "\x7d")

end SchemaBindings.Code.Print
