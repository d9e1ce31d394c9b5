import SchemaBindings.Text.IdentifierClass

/-!
Literals of the generated language. Every function gives the rest of a text after what it is about,
if the text begins with it; the literal itself is what lies before the rest.
-/

namespace SchemaBindings.Code.Lexer

open SchemaBindings.Text

/-- What a quoted literal holds. -/
inductive Contents where
  | text
  | bytes
  /-- A text that is not to hold the zero character. -/
  | terminated
deriving DecidableEq

def hexDigit? (c : Char) : Option Nat :=
  if c.isDigit then some (c.toNat - '0'.toNat)
  else if 'a' ≤ c && c ≤ 'f' then some (c.toNat - 'a'.toNat + 10)
  else if 'A' ≤ c && c ≤ 'F' then some (c.toNat - 'A'.toNat + 10)
  else none

/-- Whether a character can stand for itself. -/
def Contents.admits (k : Contents) (c : Char) : Bool :=
  match k with
  | .text => true
  | .bytes => c.toNat < 128
  | .terminated => c.toNat != 0

/-! ## Escapes -/

/-- A code point in braces, at most six digits of it, and the rest. -/
def bracedCodePoint? (value digits : Nat) : List Char → Option (Char × List Char)
  | '\x7d' :: rest =>
    if h : value.isValidChar then
      if digits = 0 then none else some (Char.ofNatAux value h, rest)
    else none
  | '_' :: rest => if digits = 0 then none else bracedCodePoint? value digits rest
  | c :: rest =>
    match hexDigit? c with
    | some d => if digits = 6 then none else bracedCodePoint? (value * 16 + d) (digits + 1) rest
    | none => none
  | [] => none

/-- The character that two digits after an `x` stand for. -/
def byteEscape? (k : Contents) (high low : Char) : Option Char := do
  let h ← hexDigit? high
  let l ← hexDigit? low
  let value := h * 16 + l
  let fits : Bool := match k with
    | .text => h < 8
    | .bytes => true
    | .terminated => value != 0
  if fits then some (Char.ofNat value) else none

/-- What an escape stands for, after its backslash, and the rest. -/
def escape? (k : Contents) : List Char → Option (Char × List Char)
  | 'x' :: high :: low :: rest => (byteEscape? k high low).map (·, rest)
  | 'n' :: rest => some ('\n', rest)
  | 'r' :: rest => some ('\r', rest)
  | 't' :: rest => some ('\t', rest)
  | '0' :: rest => if k = .terminated then none else some (Char.ofNat 0, rest)
  | 'u' :: '\x7b' :: rest => do
    if k = .bytes then none
    let (c, rest) ← bracedCodePoint? 0 0 rest
    if k = .terminated && c.toNat = 0 then none else some (c, rest)
  | c :: rest => if c = '\\' || c = '\'' || c = '"' then some (c, rest) else none
  | [] => none

/-- The rest after a line break behind a backslash, and after the blanks of the next line. -/
def continuation? : List Char → Option (List Char)
  | '\r' :: '\n' :: rest => continuation? rest
  | '\r' :: _ => none
  | c :: rest =>
    if c = ' ' || c = '\t' || c = '\n' then continuation? rest else some (c :: rest)
  | [] => none

/-! ## Quoted literals -/

/-- What a text in quotes holds, after the opening one, and the rest after the closing one. -/
def quotedContents? (k : Contents) : Nat → List Char → Option (List Char × List Char)
  | 0, _ | _, [] => none
  | fuel + 1, c :: rest =>
    if c = '"' then some ([], rest)
    else if c = '\\' then
      if rest.head?.any fun d => d = '\n' || d = '\r' then do
        quotedContents? k fuel (← continuation? rest)
      else do
        let (e, rest) ← escape? k rest
        let (contents, rest) ← quotedContents? k fuel rest
        return (e :: contents, rest)
    else if c = '\r' then
      if rest.head? = some '\n' then quotedContents? k fuel rest else none
    else if !k.admits c then none
    else (quotedContents? k fuel rest).map fun (contents, rest) => (c :: contents, rest)

/-- The rest after the quotation mark that so many number signs follow. -/
def rawEnd? (k : Contents) (hashes : Nat) : List Char → Option (List Char)
  | [] => none
  | c :: rest =>
    if c = '"' && (rest.take hashes).length = hashes && (rest.take hashes).all (· = '#') then
      some (rest.drop hashes)
    else if !k.admits c || (c = '\r' && rest.head? != some '\n') then none
    else rawEnd? k hashes rest

/-- A text without escapes, after the letter that says so. -/
def raw? (k : Contents) (s : List Char) : Option (List Char) :=
  let hashes := (s.takeWhile (· = '#')).length
  match s.drop hashes with
  | '"' :: rest => rawEnd? k hashes rest
  | _ => none

/-- A text in quotes, with or without escapes. -/
def string? (k : Contents) (s : List Char) : Option (List Char) :=
  match s with
  | '"' :: rest => (quotedContents? k (rest.length + 1) rest).map (·.2)
  | 'r' :: rest => raw? k rest
  | _ => none

/-- A single character between its quotes. -/
def character? (k : Contents) : List Char → Option (List Char)
  | '\\' :: rest => do
    match ← escape? k rest with
    | (_, '\'' :: rest) => some rest
    | _ => none
  | c :: '\'' :: rest => if k.admits c then some rest else none
  | _ => none

/-! ## Numbers -/

def isDigitOrLine (c : Char) : Bool :=
  c.isDigit || c = '_'

/-- The rest after the digits of an exponent and its sign. -/
def exponent? (s : List Char) : Option (List Char) :=
  let afterLines (s : List Char) := s.dropWhile (· = '_')
  let value? (s : List Char) :=
    if s.head?.any Char.isDigit then some (s.dropWhile isDigitOrLine) else none
  match afterLines s with
  | '+' :: rest | '-' :: rest => value? (afterLines rest)
  | rest => value? rest

/-- A number with a dot or an exponent. -/
def fraction? (s : List Char) : Option (List Char) :=
  match s.dropWhile isDigitOrLine with
  | '.' :: rest =>
    if rest.head?.any fun c => c = '.' || isIdentifierStart c then none
    else
      let rest := rest.dropWhile isDigitOrLine
      match rest with
      | 'e' :: exponent | 'E' :: exponent => some ((exponent? exponent).getD rest)
      | _ => some rest
  | 'e' :: rest | 'E' :: rest => exponent? rest
  | _ => none

/-- The rest after the digits of a base, of which there is at least one; a letter that is no digit
ends them. -/
def digits? (base : Nat) (isEmpty : Bool) : List Char → Option (List Char)
  | [] => if isEmpty then none else some []
  | c :: rest =>
    let stop := if isEmpty then none else some (c :: rest)
    if c = '_' then if isEmpty && base = 10 then none else digits? base isEmpty rest
    else match hexDigit? c with
      | none => stop
      | some d =>
        if d < base then digits? base false rest
        else if c.isDigit then none
        else stop

def integer? : List Char → Option (List Char)
  | '0' :: 'x' :: rest => digits? 16 true rest
  | '0' :: 'o' :: rest => digits? 8 true rest
  | '0' :: 'b' :: rest => digits? 2 true rest
  | s => digits? 10 true s

/-- The rest after the letters that may end a literal. -/
def withoutSuffix (s : List Char) : List Char :=
  if s.head?.any isIdentifierStart then s.dropWhile isIdentifierContinue else s

/-- A number that no further letter follows. -/
def number? (s : List Char) : Option (List Char) :=
  let whole? (rest : List Char) : Option (List Char) :=
    let rest := withoutSuffix rest
    if rest.head?.any isIdentifierContinue then none else some rest
  if s.head?.any Char.isDigit then
    ((fraction? s).bind whole?).orElse fun _ => (integer? s).bind whole?
  else none

/-- A literal of any kind. -/
def literal? (s : List Char) : Option (List Char) :=
  let quoted := match s with
    | 'b' :: '\'' :: rest => character? .bytes rest
    | 'b' :: rest => string? .bytes rest
    | 'c' :: rest => string? .terminated rest
    | '\'' :: rest => character? .text rest
    | _ => string? .text s
  (quoted.map withoutSuffix).orElse fun _ => number? s

/-- The text that a literal in quotes holds. -/
def textOf? (literal : String) : Option String := do
  let s := literal.toList
  match s with
  | '"' :: rest =>
    let (contents, _) ← quotedContents? .text (rest.length + 1) rest
    return String.ofList contents
  | 'r' :: rest =>
    let hashes := (rest.takeWhile (· = '#')).length
    let after ← raw? .text rest
    let opened := rest.drop (hashes + 1)
    return String.ofList (opened.take (opened.length - after.length - hashes - 1))
  | _ => none

end SchemaBindings.Code.Lexer
