import SchemaBindings.Text.Blank

/-!
Schema comments as documentation lines. Prose is trimmed, so that no line of it begins an indented
block of code. Inside a fence the indentation beyond that of the whole comment is kept, and a fence
that opens without a tag is tagged as plain text.
-/

namespace SchemaBindings.Docs

open SchemaBindings.Text

/-- A line without the carriage return that ends it. -/
def withoutReturn (line : List Char) : List Char :=
  if line.getLast? = some '\r' then line.dropLast else line

/-- The lines of a text. A newline at its end begins no further line, and a carriage return is part
of the line end only before a newline. -/
def lines (s : List Char) : List (List Char) :=
  let parts := s.splitOn '\n'
  let last := parts.getLast?.getD []
  parts.dropLast.map withoutReturn ++ if last.isEmpty then [] else [last]

def isBlankLine (line : List Char) : Bool :=
  line.all isBlank

/-- The number of bytes of the blanks that a line begins with. -/
def indentation (line : List Char) : Nat :=
  (line.takeWhile isBlank).foldr (fun c n => c.utf8Size + n) 0

/-- The indentation that all lines but the blank ones share. -/
def commonIndentation (ls : List (List Char)) : Nat :=
  (((ls.filter (!isBlankLine ·)).map indentation).min?).getD 0

/-- The line after its first bytes, if that many bytes are whole characters. -/
def dropBytes? : Nat → List Char → Option (List Char)
  | 0, line => some line
  | _ + 1, [] => none
  | n + 1, c :: line => if c.utf8Size ≤ n + 1 then dropBytes? (n + 1 - c.utf8Size) line else none

def fence : List Char := ['\x60', '\x60', '\x60']

/-- What follows the three backticks of a line that is a fence. -/
def fenceInfo? (line : List Char) : Option (List Char) :=
  if fence.isPrefixOf line then some (line.drop 3) else none

/-- The rendered lines; `inFence` says whether the lines before left a fence open. -/
def renderLines (indent : Nat) (inFence : Bool) : List (List Char) → List (List Char)
  | [] => []
  | line :: rest =>
    let content := trim line
    match fenceInfo? content with
    | some info =>
      let shown := if !inFence && isBlankLine info then fence ++ "text".toList else content
      (' ' :: shown) :: renderLines indent (!inFence) rest
    | none =>
      let shown :=
        if content.isEmpty then []
        else if inFence then ' ' :: trimEnd ((dropBytes? indent line).getD content)
        else ' ' :: content
      shown :: renderLines indent inFence rest

/-- The documentation lines of a comment, one for each of its lines. -/
def render (docs : Option String) : List String :=
  match docs with
  | none => []
  | some text =>
    let ls := lines text.toList
    (renderLines (commonIndentation ls) false ls).map String.ofList

end SchemaBindings.Docs
