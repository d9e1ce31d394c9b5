import SchemaBindings.Code.Ident
import SchemaBindings.Code.Lexer.Literal
import SchemaBindings.Code.Quoted
import SchemaBindings.Code.Token
import SchemaBindings.Text.Blank

/-!
From a text to the tokens of the generated language. Comments and blanks are dropped; a comment that
documents something becomes the attribute that does the same.
-/

namespace SchemaBindings.Code.Lexer

open SchemaBindings.Text

/-- A token, or one end of a group. -/
inductive Piece where
  | token (t : Token)
  | opening (d : Delimiter)
  | closing (d : Delimiter)

def operatorChars : List Char :=
  "~!@#$%^&*-=+|;:,<.>/?'".toList

/-- Blanks, and two marks of writing direction. -/
def isBlankOrDirection (c : Char) : Bool :=
  isBlank c && (c.toNat ≤ 32 || 127 < c.toNat) || c.toNat = 8206 || c.toNat = 8207

def startsComment (s : List Char) : Bool :=
  "//".toList.isPrefixOf s || "/*".toList.isPrefixOf s

/-- The rest after a nested block comment whose opening has been read `depth` times. -/
def skipBlock : Nat → List Char → Option (List Char)
  | depth, '/' :: '*' :: rest => skipBlock (depth + 1) rest
  | 1, '*' :: '/' :: rest => some rest
  | depth, '*' :: '/' :: rest => skipBlock (depth - 1) rest
  | depth, _ :: rest => skipBlock depth rest
  | _, [] => none

def startsWith (s : List Char) (t : String) : Bool :=
  t.toList.isPrefixOf s

/-- The rest of a line, without its end, and what follows. -/
def line : List Char → List Char × List Char
  | [] => ([], [])
  | '\n' :: rest => ([], '\n' :: rest)
  | '\r' :: '\n' :: rest => ([], '\n' :: rest)
  | c :: rest =>
    let (first, rest) := line rest
    (c :: first, rest)

/-- The text of a documentation comment, whether it documents what encloses it, and the rest. A
carriage return stands only before a line break. -/
def documentation? (s : List Char) : Option (List Char × Bool × List Char) := do
  let block (isInner : Bool) : Option (List Char × Bool × List Char) := do
    let rest ← skipBlock 1 (s.drop 2)
    let length := s.length - rest.length
    return ((s.take (length - 2)).drop 3, isInner, rest)
  let (text, isInner, rest) ←
    if startsWith s "//!" then some ((line (s.drop 3)).1, true, (line (s.drop 3)).2)
    else if startsWith s "/*!" then block true
    else if startsWith s "///" && !startsWith s "////" then
      some ((line (s.drop 3)).1, false, (line (s.drop 3)).2)
    else if startsWith s "/**" && !startsWith s "/***" && !startsWith s "/**/" then block false
    else none
  if hasLoneReturn text then none else some (text, isInner, rest)
where
  hasLoneReturn : List Char → Bool
    | [] => false
    | '\r' :: rest => rest.head? != some '\n' || hasLoneReturn rest
    | _ :: rest => hasLoneReturn rest

/-- Whether a line or block comment is documentation. -/
def isDocumentation (s : List Char) : Bool :=
  startsWith s "//!" || startsWith s "/*!" || (startsWith s "///" && !startsWith s "////") ||
    (startsWith s "/**" && !startsWith s "/***" && !startsWith s "/**/")

/-- The attribute that documents with a text. -/
def documentationTokens (text : List Char) (isInner : Bool) : List Token :=
  .mark '#' false :: (if isInner then [.mark '!' false] else []) ++
    [.group .bracket [.word "doc", .mark '=' false, .literal (quoted (String.ofList text))]]

def isNameChar (c : Char) : Bool :=
  isIdentifierContinue c

/-- The delimiter that a character opens or closes, and whether it opens it. -/
def delimiter? : Char → Option (Bool × Delimiter)
  | '(' => some (true, .paren)
  | ')' => some (false, .paren)
  | '[' => some (true, .bracket)
  | ']' => some (false, .bracket)
  | '\x7b' => some (true, .brace)
  | '\x7d' => some (false, .brace)
  | _ => none

/-- The part of `s` before its suffix `rest`. -/
def upTo (s rest : List Char) : String :=
  String.ofList (s.take (s.length - rest.length))

/-- The beginnings of literals, which no word has. -/
def literalStarts : List String :=
  ["r\"", "r#\"", "r##", "b\"", "b'", "br\"", "br#", "c\"", "cr\"", "cr#"]

/-- A word, with its mark if it has one. -/
def word? (s : List Char) : Option (String × List Char) :=
  let (mark, body) := match afterMark? s with
    | some body => ("r#", body)
    | none => ("", s)
  let name := body.takeWhile isNameChar
  if hasIdentifierShape name && !(mark == "r#" && unmarkable.contains (String.ofList name)) then
    some (mark ++ String.ofList name, body.dropWhile isNameChar)
  else none

/-- The apostrophe of a lifetime: a word follows it, and no other apostrophe. -/
def lifetimeMark? (rest : List Char) : Option Token :=
  match word? rest with
  | some (_, '\'' :: _) => none
  | some (_, '#' :: _) => if startsWith rest "r#" then some (.mark '\'' true) else none
  | some _ => some (.mark '\'' true)
  | none => none

/-- A single token that is no group. -/
def token? (s : List Char) : Option (Token × List Char) :=
  match literal? s with
  | some after => some (.literal (upTo s after), after)
  | none =>
    match s with
    | [] => none
    | c :: rest =>
      if c = '\'' then (lifetimeMark? rest).map (·, rest)
      else if operatorChars.contains c then
        let joint := rest.head?.any operatorChars.contains && !startsComment rest
        some (.mark c joint, rest)
      else if literalStarts.any (startsWith s) then none
      else (word? s).map fun (w, after) => (.word w, after)

/-- The pieces of a text. Every step takes a character, so its length is fuel enough. -/
def pieces (fuel : Nat) (s : List Char) : Option (List Piece) :=
  match fuel, s with
  | _, [] => some []
  | 0, _ => none
  | fuel + 1, c :: rest =>
    if isBlankOrDirection c then pieces fuel rest
    else if startsComment s then
      match documentation? s with
      | some (text, isInner, rest) => do
        return (documentationTokens text isInner).map .token ++ (← pieces fuel rest)
      | none =>
        if isDocumentation s then none
        else if rest.head? = some '/' then pieces fuel (line rest).2
        else do pieces fuel (← skipBlock 1 (rest.drop 1))
    else match delimiter? c with
      | some (true, d) => do return .opening d :: (← pieces fuel rest)
      | some (false, d) => do return .closing d :: (← pieces fuel rest)
      | none => do
        let (t, rest) ← token? s
        return .token t :: (← pieces fuel rest)

/-- Gathers pieces into groups; `open_` holds the groups that are not closed yet, the innermost
first, each with its tokens so far in reverse. -/
def gather (current : List Token) (open_ : List (Delimiter × List Token)) :
    List Piece → Option (List Token)
  | [] => if open_.isEmpty then some current.reverse else none
  | .token t :: rest => gather (t :: current) open_ rest
  | .opening d :: rest => gather [] ((d, current) :: open_) rest
  | .closing d :: rest =>
    match open_ with
    | [] => none
    | (d', outer) :: open_ =>
      if d = d' then gather (.group d current.reverse :: outer) open_ rest else none

/-- The tokens of a text; a byte order mark before it is skipped. -/
def tokens? (text : String) : Option (List Token) := do
  let s := match text.toList with
    | '\ufeff' :: rest => rest
    | s => s
  gather [] [] (← pieces s.length s)

end SchemaBindings.Code.Lexer
