import SchemaBindings.Code.Layout

/-!
Lists and blocks of generated code as documents: one element a line, with a comma after the last,
where a list does not fit on a line, and four blanks a level.
-/

namespace SchemaBindings.Code.Print

open Layout (Doc Break unfitting)

def text (s : String) : List Doc := [.text s]

def hardBreak : Doc := .line { blanks := unfitting }

def space : Doc := .line { blanks := 1 }

def zeroBreak : Doc := .line {}

def neverBreak : Doc := .line { never := true }

/-- The break after the last element of a list, which gets a comma if the line ends there. -/
def lastComma : Doc := .line { before := "," }

/-- The documents of an indented group with its last break at the indentation around it. -/
def outdented : List Doc → List Doc
  | [] => []
  | [.line b] => [.line { b with offset := b.offset - 4 }]
  | d :: rest => d :: outdented rest

/-- Documents with a text between them. -/
def separated (separator : String) : List (List Doc) → List Doc
  | [] => []
  | [d] => d
  | d :: e :: rest => d ++ .text separator :: separated separator (e :: rest)

/-- Elements with commas and breaks between them. -/
def joined (items : List (List Doc)) : List Doc :=
  match items with
  | [] => []
  | [item] => item
  | item :: next :: rest => item ++ .text "," :: space :: joined (next :: rest)

def commaItems (items : List (List Doc)) : List Doc :=
  joined items ++ [lastComma]

/-- A list between brackets that are written outside. -/
def commaList (items : List (List Doc)) : List Doc :=
  if items.isEmpty then [] else [.group true 4 (outdented (zeroBreak :: commaItems items))]

/-- Further elements, each with a plus sign before it. -/
def plusItems : List (List Doc) → List Doc
  | [] => []
  | d :: rest => space :: .text "+ " :: (d ++ plusItems rest)

/-- Elements behind a colon, with plus signs between them. -/
def colonItems : List (List Doc) → List Doc
  | [] => []
  | d :: rest => .text ": " :: (d ++ plusItems rest)

/-- Lines of their own between braces that are written outside. -/
def lines (body : List Doc) : List Doc :=
  if body.isEmpty then [] else outdented (hardBreak :: body)

/-- A group of lines between braces that are written outside. -/
def linesGroup (body : List Doc) : List Doc :=
  if body.isEmpty then [] else [.group true 4 (lines body)]

end SchemaBindings.Code.Print
