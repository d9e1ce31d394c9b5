import SchemaBindings.Json.Reader
import SchemaBindings.Proto.Token
import SchemaBindings.Text.Blank

/-!
From schema sources to tokens. A comment documents the token after it if it begins on a line of its
own, no blank line stands between the two, and the token does not close anything.
-/

namespace SchemaBindings.Proto.Lexer

open SchemaBindings.Json (hexValue?)

/-- White space other than the line break. -/
def isBlank (c : Char) : Bool :=
  c == ' ' || c == '\t' || c == '\r' || c.toNat == 11 || c.toNat == 12

def isWordStart (c : Char) : Bool :=
  c.isAlpha || c == '_'

def isWordChar (c : Char) : Bool :=
  c.isAlphanum || c == '_'

/-! ## Comments -/

/-- The content of a line comment, its line break included, and the rest. A carriage return in front
of the line break is left out. -/
def lineComment : List Char → List Char × List Char
  | [] => ([], [])
  | '\n' :: rest | '\r' :: '\n' :: rest => (['\n'], rest)
  | c :: rest =>
    let (content, rest) := lineComment rest
    (c :: content, rest)

/-- The text of a block comment up to its end, and the rest; comments are not nested. A carriage
return in front of a line break is left out. -/
def blockText : List Char → Option (List Char × List Char)
  | '*' :: '/' :: rest => some ([], rest)
  | '/' :: '*' :: _ => none
  | [] => none
  | '\r' :: '\n' :: rest => (blockText rest).map fun (text, rest) => ('\n' :: text, rest)
  | c :: rest => (blockText rest).map fun (text, rest) => (c :: text, rest)

/-- A block comment's text without the white space at the beginning of its later lines, blank lines
included, and without one asterisk behind it. `lineStart` says that nothing but white space has been
met since a line break. -/
def withoutMargin (lineStart : Bool) : List Char → List Char
  | [] => []
  | c :: rest =>
    if lineStart && Text.isBlank c then withoutMargin true rest
    else if lineStart && c == '*' then withoutMargin false rest
    else c :: withoutMargin (c == '\n') rest

/-- The content of a block comment and the rest. -/
def blockComment (s : List Char) : Option (List Char × List Char) :=
  (blockText s).map fun (text, rest) => (withoutMargin false text, rest)

/-- A comment that may document what follows, and whether it is made of line comments. -/
abbrev Pending := Option (Bool × List Char)

/-- The comment with one more line. -/
def addLine (pending : Pending) (content : List Char) : Pending :=
  match pending with
  | some (true, before) => some (true, before ++ content)
  | _ => some (true, content)

/-- The rest after white space and comments that document nothing. `hashes` says that a number sign
begins a comment too. -/
def skipGap (hashes : Bool) (fuel : Nat) (s : List Char) : Option (List Char) :=
  match fuel, s with
  | 0, _ => none
  | fuel + 1, '/' :: '/' :: rest => skipGap hashes fuel (lineComment rest).2
  | fuel + 1, '/' :: '*' :: rest => do skipGap hashes fuel (← blockComment rest).2
  | fuel + 1, c :: rest =>
    if isBlank c || c == '\n' then skipGap hashes fuel rest
    else if hashes && c == '#' then skipGap hashes fuel (lineComment rest).2
    else some (c :: rest)
  | _ + 1, [] => some []

/-- The gap before a token, from the beginning of a line on: the comment that documents the token,
and the rest. -/
def lineGap (fuel : Nat) (pending : Pending) (s : List Char) : Option (Pending × List Char) :=
  match fuel, s.dropWhile isBlank with
  | 0, _ => none
  | fuel + 1, '/' :: '/' :: rest =>
    let (content, rest) := lineComment rest
    lineGap fuel (addLine pending content) rest
  | fuel + 1, '/' :: '*' :: rest => do
    let (content, rest) ← blockComment rest
    match rest.dropWhile isBlank with
    | '\n' :: rest => lineGap fuel (some (false, content)) rest
    | rest => lineGap fuel (some (false, content)) rest
  | fuel + 1, '\n' :: rest => lineGap fuel none rest
  | _ + 1, rest =>
    match rest.head? with
    | none | some '\x7d' | some ']' | some ')' => some (none, rest)
    | some _ => some (pending, rest)

/-- The gap after a token. A comment on its line belongs to it, unless it is the only comment there,
ends the line as a block and stands right above the next token. -/
def gap (s : List Char) : Option (Pending × List Char) :=
  let fuel := s.length + 1
  match s.dropWhile isBlank with
  | '/' :: '/' :: rest => lineGap fuel none (lineComment rest).2
  | '/' :: '*' :: rest => do
    let (content, rest) ← blockComment rest
    match rest.dropWhile isBlank with
    | '\n' :: rest => lineGap fuel (some (false, content)) rest
    | rest => return (none, ← skipGap false fuel rest)
  | '\n' :: rest => lineGap fuel none rest
  | rest => some (none, rest)

/-! ## Texts -/

/-- The number of up to `count` digits at the beginning of a text, of which there is at least
one. -/
def digits? (radix count : Nat) (s : List Char) : Option (Nat × List Char) :=
  let isDigit (c : Char) : Bool := (hexValue? c).any (· < radix)
  let digits := (s.take count).takeWhile isDigit
  if digits.isEmpty then none
  else some ((digits.filterMap hexValue?).foldl (fun n d => n * radix + d) 0, s.drop digits.length)

/-- The bytes of the character with a code point that exactly `count` digits write. -/
def codePoint? (count : Nat) (s : List Char) : Option (List UInt8 × List Char) := do
  let (n, rest) ← digits? 16 count s
  if rest.length + count ≠ s.length then none
  else if h : n.isValidChar then
    some ((String.singleton (Char.ofNatAux n h)).toUTF8.toList, rest)
  else none

/-- The bytes that an escape stands for, after its backslash. -/
def escape? (s : List Char) : Option (List UInt8 × List Char) :=
  match s with
  | 'a' :: rest => some ([7], rest)
  | 'b' :: rest => some ([8], rest)
  | 't' :: rest => some ([9], rest)
  | 'n' :: rest => some ([10], rest)
  | 'v' :: rest => some ([11], rest)
  | 'f' :: rest => some ([12], rest)
  | 'r' :: rest => some ([13], rest)
  | '\\' :: rest => some ([92], rest)
  | '\'' :: rest => some ([39], rest)
  | '"' :: rest => some ([34], rest)
  | '?' :: rest => some ([63], rest)
  | 'x' :: rest | 'X' :: rest => do
    let (n, rest) ← digits? 16 2 rest
    return ([n.toUInt8], rest)
  | 'u' :: rest => codePoint? 4 rest
  | 'U' :: rest => codePoint? 8 rest
  | _ => do
    let (n, rest) ← digits? 8 3 s
    if n < 256 then return ([n.toUInt8], rest) else none

/-- The bytes of a text after its opening quote. -/
def quotedText (quote : Char) (fuel : Nat) (s : List Char) : Option (List UInt8 × List Char) :=
  match fuel, s with
  | 0, _ | _, [] => none
  | fuel + 1, c :: rest =>
    if c = quote then some ([], rest)
    else if c = '\n' ∨ c.toNat = 0 then none
    else do
      let (bytes, rest) ← if c = '\\' then escape? rest
        else some ((String.singleton c).toUTF8.toList, rest)
      let (more, rest) ← quotedText quote fuel rest
      return (bytes ++ more, rest)

/-! ## Numbers -/

/-- The largest integer that can be written. -/
def maxInteger : Nat := 18446744073709551615

/-- The digits of an integer with their radix, and the rest. A zero before anything but the digits
of a larger number stands for itself. -/
def integerDigits (s : List Char) : Nat × List Char × List Char :=
  let split (radix : Nat) (s : List Char) : Nat × List Char × List Char :=
    let isDigit (c : Char) : Bool := (hexValue? c).any (· < radix)
    (radix, s.takeWhile isDigit, s.dropWhile isDigit)
  match s with
  | '0' :: x :: d :: rest =>
    if (x == 'x' || x == 'X') && (hexValue? d).isSome then split 16 (d :: rest)
    else split 8 s
  | '0' :: _ => split 8 s
  | _ => split 10 s

/-- An integer. No letter may follow it, but for a zero that stands for itself. -/
def integer? (s : List Char) : Option (Token × List Char) :=
  let (radix, digits, rest) := integerDigits s
  let n := (digits.filterMap hexValue?).foldl (fun n d => n * radix + d) 0
  let isLoneZero := radix == 8 && digits.length == 1
  if n ≤ maxInteger ∧ (isLoneZero ∨ !rest.head?.any isWordStart) then some (.integer n, rest)
  else none

/-- The exponent at the beginning of a text, if there is one, and the rest. -/
def exponent? (s : List Char) : Option (List Char) :=
  let digits? (s : List Char) : Option (List Char) :=
    if s.head?.any Char.isDigit then some (s.dropWhile Char.isDigit) else none
  match s with
  | e :: rest =>
    if e ≠ 'e' ∧ e ≠ 'E' then none
    else match rest with
      | '+' :: rest | '-' :: rest => digits? rest
      | rest => digits? rest
  | [] => none

/-- The rest after a number that is no integer, without the letter that may end it, and its digits
before the exponent. -/
def fraction? (s : List Char) : Option (List Char × List Char) :=
  let whole := s.takeWhile Char.isDigit
  match s.drop whole.length with
  | '.' :: rest =>
    let places := rest.takeWhile Char.isDigit
    let rest := rest.drop places.length
    if whole.isEmpty ∧ places.isEmpty then none
    else some (whole ++ places, (exponent? rest).getD rest)
  | rest => if whole.isEmpty then none else (exponent? rest).map (whole, ·)

/-- Whether a letter ends a number that is no integer. -/
def isSuffix (c : Char) : Bool :=
  c == 'f' || c == 'F'

/-- A number. `suffixes` says that a letter may end one that is no integer, and makes one of an
integer. -/
def number? (suffixes : Bool) (s : List Char) : Option (Token × List Char) := do
  let found := (fraction? s).orElse fun _ =>
    let (radix, digits, rest) := integerDigits s
    let isPlain := radix == 10 || (radix == 8 && digits.length == 1)
    if isPlain && rest.head?.any isSuffix then some (digits, rest) else none
  match found with
  | none => integer? s
  | some (digits, rest) =>
    let rest ← if rest.head?.any isSuffix then if suffixes then some (rest.drop 1) else none
      else some rest
    if rest.head?.any isWordStart then none
    else return (.fraction (digits.all (· == '0')), rest)

def marks : List Char :=
  [';', ':', ',', '.', '=', '-', '+', '/', '(', ')', '[', ']', '\x7b', '\x7d', '<', '>']

/-- One token at the beginning of a text. -/
def token? (suffixes : Bool) (s : List Char) : Option (Token × List Char) :=
  match s with
  | [] => none
  | c :: rest =>
    if isWordStart c then
      some (.word (String.ofList (s.takeWhile isWordChar)), s.dropWhile isWordChar)
    else if c.isDigit ∨ (c = '.' ∧ rest.head?.any Char.isDigit) then number? suffixes s
    else if c = '"' ∨ c = '\'' then
      (quotedText c (s.length + 1) rest).map fun (bytes, rest) => (.text bytes, rest)
    else if marks.contains c then some (.mark c, rest)
    else none

/-- The number of open braces of an option's value after a token that may open or close one. The
first one follows an equals sign. -/
def valueDepth (depth : Nat) (previous token : Token) : Nat :=
  match token with
  | .mark '\x7b' => if depth = 0 ∧ previous ≠ .mark '=' then 0 else depth + 1
  | .mark '\x7d' => depth - 1
  | _ => depth

/-- The lexemes of a text; `pending` is the comment in front of it and `depth` the number of braces
of an option's value around it. -/
def lexemes (fuel : Nat) (pending : Pending) (depth : Nat) (previous : Token) (s : List Char) :
    Option (List Lexeme) :=
  match fuel, s with
  | _, [] => some []
  | 0, _ => none
  | fuel + 1, s => do
    let (token, rest) ← token? (0 < depth) s
    let leading := pending.map fun (_, content) => String.ofList content
    let depth := valueDepth depth previous token
    let (next, rest) ← if depth = 0 then gap rest
      else (skipGap true (rest.length + 1) rest).map (none, ·)
    return ⟨token, leading⟩ :: (← lexemes fuel next depth token rest)

/-- The lexemes of a source. -/
def ofText? (text : String) : Option (List Lexeme) := do
  let s := text.toList
  let (pending, rest) ← lineGap (s.length + 1) none s
  lexemes (rest.length + 1) pending 0 (.mark ';') rest

end SchemaBindings.Proto.Lexer
