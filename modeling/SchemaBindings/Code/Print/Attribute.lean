import SchemaBindings.Code.Lexer.Literal
import SchemaBindings.Code.Print.Basic
import SchemaBindings.Code.Quoted
import SchemaBindings.Code.Tree

/-!
The layout of attributes. Documentation becomes comments: one line each, or a block where a text has
several lines and can stand in one.
-/

namespace SchemaBindings.Code.Print

open Layout (Doc)

/-! ## Comments -/

def withoutTrailingBlanks (s : List Char) : List Char :=
  (s.reverse.dropWhile (· == ' ')).reverse

/-- Whether openings and closings of block comments match in a text, starting at a depth. -/
def blocksMatch (depth : Nat) : List Char → Bool
  | '/' :: '*' :: rest => blocksMatch (depth + 1) rest
  | '*' :: '/' :: rest =>
    match depth with
    | 0 => false
    | depth + 1 => blocksMatch depth rest
  | _ :: rest => blocksMatch depth rest
  | [] => depth == 0

/-- The lines of a block, of which only the last keeps the blanks at its end. -/
def blockLines : List (List Char) → List (List Char)
  | [] => []
  | [line] => [line]
  | line :: next :: rest => withoutTrailingBlanks line :: blockLines (next :: rest)

/-- How a kind of comment is written. -/
structure CommentStyle where
  line : String
  block : String
  /-- What the text of a line must not begin with. -/
  refusedInLine : List Char := []
  /-- What the text of a block must not begin with. -/
  refusedInBlock : List Char := []

/-- Documentation of what follows. -/
def outerStyle : CommentStyle :=
  { line := "///", block := "/**", refusedInLine := ['/'], refusedInBlock := ['/', '*'] }

/-- Documentation of the enclosing file. -/
def innerStyle : CommentStyle :=
  { line := "//!", block := "/*!" }

/-- Comments that document nothing. -/
def plainStyle : CommentStyle :=
  { line := "//", block := "/*", refusedInBlock := ['*', '!'] }

/-- A text as a comment, if it can be one. -/
def commentText? (style : CommentStyle) (comment : String) : Option String :=
  let cs := comment.toList
  if !cs.contains '\n' && !cs.head?.any style.refusedInLine.contains then
    some (style.line ++ String.ofList (withoutTrailingBlanks cs))
  else if blocksMatch 0 cs && cs.getLast? != some '/' && !cs.head?.any style.refusedInBlock.contains
  then
    some (style.block ++
      String.ofList (['\n'].intercalate (blockLines (cs.splitOn '\n'))) ++ "*/")
  else none

/-- Documentation of what follows. -/
def outerDoc (doc : String) : List Doc :=
  match commentText? outerStyle doc with
  | some comment => [.text comment, hardBreak]
  | none => [.text ("#[doc = " ++ quoted doc ++ "]"), space]

/-- Documentation of the enclosing file. -/
def innerDoc (doc : String) : List Doc :=
  match commentText? innerStyle doc with
  | some comment => [.text comment, hardBreak]
  | none => [.text ("#![doc = " ++ quoted doc ++ "]"), space]

/-! ## Tokens of an attribute -/

/-- What the tokens of an attribute so far end with. -/
inductive Ending where
  | word
  | mark
  | lastComma
deriving DecidableEq

mutual

/-- Tokens inside an attribute: words are set apart from each other, and marks only where they are
commas or equals signs. -/
def attributeTokens (ending : Ending) : List Token → List Doc × Ending
  | [] => ([], ending)
  | t :: rest =>
    let (first, ending) := attributeToken ending rest.isEmpty t
    let (others, ending) := attributeTokens ending rest
    (first ++ others, ending)

def attributeToken (ending : Ending) (isLast : Bool) : Token → List Doc × Ending
  | .word w => ((if ending = .word then [space] else []) ++ text w, .word)
  | .literal w => ((if ending = .word then [space] else []) ++ text w, .word)
  | .mark c _ =>
    let ahead := if ending = .word ∧ c = '=' then text " " else []
    if c = ',' ∧ isLast then (ahead ++ [lastComma], .lastComma)
    else
      let behind := if c = '=' then text " " else if c = ',' then [space] else []
      (ahead ++ text (String.singleton c) ++ behind, .mark)
  | .group .paren inner =>
    let (body, ending) := attributeTokens .mark inner
    let close := if ending = .lastComma then [] else [zeroBreak]
    (.text "(" :: .group true 4 (outdented (zeroBreak :: (body ++ close))) :: text ")", .mark)
  | .group .brace inner =>
    let (body, _) := attributeTokens .mark inner
    (.text "\x7b" :: (body ++ text "\x7d"), .mark)
  | .group .bracket inner =>
    let (body, _) := attributeTokens .mark inner
    (.text "[" :: (body ++ text "]"), .mark)

end

/-! ## Attributes read from a text -/

/-- The comment that an attribute says, if it says one; `documentation` is the style in which it
would document something. -/
def commentOf? (documentation : CommentStyle) : List Token → Option String
  | [.word "doc", .mark '=' _, .literal l] =>
    (Lexer.textOf? l).bind (commentText? documentation)
  | [.word "comment", .mark '=' _, .literal l] => (Lexer.textOf? l).bind (commentText? plainStyle)
  | _ => none

/-- How an attribute is written. -/
structure MarkStyle where
  /-- How it documents something. -/
  documentation : CommentStyle
  opening : String

/-- Attributes of what follows. -/
def outerMark : MarkStyle := ⟨outerStyle, "#["⟩

/-- Attributes of what encloses them. -/
def innerMark : MarkStyle := ⟨innerStyle, "#!["⟩

/-- An attribute by its tokens and the layout of its value, or the comment that it says. -/
def markDocs (style : MarkStyle) (tokens : List Token) (value : List Doc) : List Doc :=
  match commentOf? style.documentation tokens with
  | some comment => [.text comment, hardBreak]
  | none => .text style.opening :: ((attributeTokens .mark tokens).1 ++ value ++ [.text "]", space])

end SchemaBindings.Code.Print
