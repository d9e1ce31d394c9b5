import SchemaBindings.Json.Reader
import SchemaBindings.Toml

/-!
Reading a TOML document.
-/

namespace SchemaBindings.Toml

/-- Takes something from the beginning of a text, or refuses it. -/
abbrev Reader := StateT (List Char) Option

namespace Reader

open SchemaBindings.Json (hexValue? decimal)

def isBlank (c : Char) : Bool :=
  c == ' ' || c == '\t'

/-- Whether a character may stand in comments and quoted texts. -/
def isPlain (c : Char) : Bool :=
  c == '\t' || (32 ≤ c.toNat && c.toNat != 127)

def isBareKeyChar (c : Char) : Bool :=
  c.isAlphanum || c == '_' || c == '-'

def peek : Reader (Option Char) := do return (← get).head?

def take (p : Char → Bool) : Reader (List Char) := do
  let s ← get
  set (s.dropWhile p)
  return s.takeWhile p

def skipBlanks : Reader Unit := do let _ ← take isBlank

/-- Takes a text if it comes next. -/
def literalIf (text : String) : Reader Bool := do
  let s ← get
  if text.toList.isPrefixOf s then set (s.drop text.length); return true else return false

def literal (text : String) : Reader Unit := do
  if !(← literalIf text) then failure

def newlineIf : Reader Bool := do
  if ← literalIf "\n" then return true else literalIf "\r\n"

def commentIf : Reader Bool := do
  if ← literalIf "#" then
    let _ ← take isPlain
    return true
  else return false

/-- The end of a line: blanks and a comment before a line break or the end of the text. -/
def lineEnd : Reader Unit := do
  skipBlanks
  let _ ← commentIf
  if !(← get).isEmpty then
    if !(← newlineIf) then failure

/-- Blanks, comments and line breaks. -/
def skipLines (fuel : Nat) : Reader Unit := do
  match fuel with
  | 0 => failure
  | fuel + 1 =>
    skipBlanks
    if (← commentIf) || (← newlineIf) then skipLines fuel

/-! ## Texts -/

/-- The character that hexadecimal digits name. -/
def charOfDigits (count : Nat) : Reader Char := do
  let s ← get
  let some digits := (s.take count).mapM hexValue? | failure
  if digits.length < count then failure
  let n := digits.foldl (fun n d => n * 16 + d) 0
  set (s.drop count)
  if h : n.isValidChar then return Char.ofNatAux n h else failure

/-- The character that an escape stands for, after its backslash. -/
def escaped : Reader Char := do
  match ← get with
  | [] => failure
  | c :: rest =>
    set rest
    match c with
    | 'b' => return Char.ofNat 8
    | 't' => return '\t'
    | 'n' => return '\n'
    | 'f' => return Char.ofNat 12
    | 'r' => return '\r'
    | '"' => return '"'
    | '\\' => return '\\'
    | 'u' => charOfDigits 4
    | 'U' => charOfDigits 8
    | _ => failure

/-- The rest of a text on one line, after its opening quote. -/
def basicText (fuel : Nat) : Reader (List Char) := do
  match fuel with
  | 0 => failure
  | fuel + 1 =>
    match ← get with
    | [] => failure
    | c :: rest =>
      set rest
      if c = '"' then return []
      else if c = '\\' then
        let e ← escaped
        return e :: (← basicText fuel)
      else if isPlain c then return c :: (← basicText fuel)
      else failure

def literalText : Reader (List Char) := do
  let text ← take fun c => isPlain c && c != '\''
  literal "'"
  return text

/-- Up to two quotes that stand before the closing three. -/
def closingQuotes (quote : Char) : Reader (Option (List Char)) := do
  let s ← get
  let count := (s.takeWhile (· == quote)).length
  if count < 3 then return none
  let kept := min (count - 3) 2
  set (s.drop (kept + 3))
  return some (List.replicate kept quote)

/-- Blanks and line breaks after a backslash at the end of a line. -/
def skipContinuation (fuel : Nat) : Reader Unit := do
  match fuel with
  | 0 => failure
  | fuel + 1 =>
    skipBlanks
    if ← newlineIf then skipContinuation fuel

/-- The rest of a text of several lines; only texts in double quotes have escapes. -/
def longText (quote : Char) (fuel : Nat) : Reader (List Char) := do
  match fuel with
  | 0 => failure
  | fuel + 1 =>
    match ← closingQuotes quote with
    | some kept => return kept
    | none =>
      if ← newlineIf then return '\n' :: (← longText quote fuel)
      match ← get with
      | [] => failure
      | c :: rest =>
        set rest
        if c = '\\' ∧ quote = '"' then
          if rest.dropWhile isBlank |>.head?.any (fun d => d == '\n' || d == '\r') then
            skipBlanks
            if !(← newlineIf) then failure
            skipContinuation fuel
            longText quote fuel
          else
            let e ← escaped
            return e :: (← longText quote fuel)
        else if isPlain c then return c :: (← longText quote fuel)
        else failure

/-- A text in quotes, which may have several lines if it is a value. -/
def quotedText (mayBeLong : Bool) : Reader String := do
  let fuel := (← get).length + 1
  let chars ←
    if mayBeLong && (← literalIf "\"\"\"") then
      let _ ← newlineIf
      longText '"' fuel
    else if mayBeLong && (← literalIf "'''") then
      let _ ← newlineIf
      longText '\'' fuel
    else if ← literalIf "\"" then basicText fuel
    else do
      literal "'"
      literalText
  return String.ofList chars

/-! ## Keys -/

def simpleKey : Reader String := do
  match ← peek with
  | some '"' | some '\'' => quotedText false
  | _ =>
    let name ← take isBareKeyChar
    if name.isEmpty then failure
    return String.ofList name

/-- The bound that the number of keys between dots and the depth of nested values stay below. -/
def depthLimit : Nat := 80

def dottedKeys (fuel : Nat) : Reader (List String) := do
  match fuel with
  | 0 => failure
  | fuel + 1 =>
    skipBlanks
    let first ← simpleKey
    skipBlanks
    if ← literalIf "." then return first :: (← dottedKeys fuel) else return [first]

/-- The keys between dots. -/
def key (fuel : Nat) : Reader (List String) := do
  let keys ← dottedKeys fuel
  if keys.length < depthLimit then return keys else failure

/-! ## Numbers and dates -/

/-- Whether digits may be written like this: single underscores stand between digits. -/
def areDigits (isDigit : Char → Bool) (s : List Char) : Bool :=
  s.splitOn '_' |>.all fun part => !part.isEmpty && part.all isDigit

def withoutSign : List Char → List Char
  | '+' :: rest | '-' :: rest => rest
  | s => s

def isDecimalWhole (s : List Char) : Bool :=
  areDigits Char.isDigit s && (s.length == 1 || s.head? != some '0')

/-- Whether the number fits into 64 bits with a sign. -/
def fits (isNegative : Bool) (radix : Nat) (s : List Char) : Bool :=
  let digits := (s.filter (· != '_')).filterMap hexValue?
  let n := digits.foldl (fun n d => n * radix + d) 0
  if isNegative then n ≤ 9223372036854775808 else n ≤ 9223372036854775807

def isInteger (s : List Char) : Bool :=
  match s with
  | '0' :: 'x' :: rest => areDigits (fun c => (hexValue? c).isSome) rest && fits false 16 rest
  | '0' :: 'o' :: rest => areDigits (fun c => '0' ≤ c && c ≤ '7') rest && fits false 8 rest
  | '0' :: 'b' :: rest => areDigits (fun c => c == '0' || c == '1') rest && fits false 2 rest
  | s =>
    let whole := withoutSign s
    isDecimalWhole whole && fits (s.head? == some '-') 10 whole

def isExponent (s : List Char) : Bool :=
  areDigits Char.isDigit (withoutSign s)

/-- The least number that is rounded beyond every number of 64 bits. -/
def overflowBound : Nat := (Nat.pow 2 54 - 1) * Nat.pow 2 970

/-- Whether `mantissa * 10 ^ exponent` is at least the bound. The number of digits settles it but
for a few exponents. -/
def overflows (mantissa : Nat) (exponent : Int) : Bool :=
  let digits : Int := (Nat.toDigits 10 mantissa).length
  if mantissa = 0 ∨ digits + exponent < 309 then false
  else if digits + exponent > 309 then true
  else if 0 ≤ exponent then overflowBound ≤ mantissa * Nat.pow 10 exponent.toNat
  else overflowBound * Nat.pow 10 exponent.natAbs ≤ mantissa

/-- A number with a fraction or an exponent. It may be too small to be told from zero and, with a
minus, too large, but not too large otherwise. -/
def isFloat (s : List Char) : Bool :=
  let body := withoutSign s
  if body == "inf".toList || body == "nan".toList then true
  else
    let mantissa := body.takeWhile fun c => c != 'e' && c != 'E'
    let exponent := body.drop mantissa.length
    let whole := mantissa.takeWhile (· != '.')
    let fraction := mantissa.drop whole.length
    let digitsOf (s : List Char) : Nat := decimal (s.filter Char.isDigit)
    let places := (fraction.filter Char.isDigit).length
    let power : Int := if exponent[1]? == some '-' then -digitsOf exponent else digitsOf exponent
    (!exponent.isEmpty || !fraction.isEmpty) && isDecimalWhole whole &&
      (fraction.isEmpty || areDigits Char.isDigit (fraction.drop 1)) &&
      (exponent.isEmpty || isExponent (exponent.drop 1)) &&
      (s.head? == some '-' || !overflows (digitsOf mantissa) (power - places))

/-- The number that exactly `count` digits write. -/
def fixedNumber? (count : Nat) (s : List Char) : Option (Nat × List Char) :=
  let digits := s.take count
  if digits.length = count ∧ digits.all Char.isDigit then some (decimal digits, s.drop count)
  else none

def isLeapYear (year : Nat) : Bool :=
  year % 4 == 0 && (year % 100 != 0 || year % 400 == 0)

def daysIn (year month : Nat) : Nat :=
  if month = 2 then if isLeapYear year then 29 else 28
  else if month = 4 ∨ month = 6 ∨ month = 9 ∨ month = 11 then 30
  else 31

/-- The day at the beginning of a text, as `YYYY-MM-DD`. -/
def day? (s : List Char) : Option (List Char × List Char) := do
  let (year, rest) ← fixedNumber? 4 s
  let '-' :: rest := rest | none
  let (month, rest) ← fixedNumber? 2 rest
  let '-' :: rest := rest | none
  let (day, rest) ← fixedNumber? 2 rest
  if 1 ≤ month ∧ month ≤ 12 ∧ 1 ≤ day ∧ day ≤ daysIn year month then return (s.take 10, rest)
  else none

/-- The digits of a fraction of a second: at most nine, without zeros at the end. -/
def fractionText (digits : List Char) : List Char :=
  let kept := ((digits.take 9).reverse.dropWhile (· == '0')).reverse
  if kept.isEmpty then [] else '.' :: kept

/-- The time at the beginning of a text, as `hh:mm:ss` and perhaps a fraction. -/
def time? (s : List Char) : Option (List Char × List Char) := do
  let (hour, rest) ← fixedNumber? 2 s
  let ':' :: rest := rest | none
  let (minute, rest) ← fixedNumber? 2 rest
  let ':' :: rest := rest | none
  let (second, rest) ← fixedNumber? 2 rest
  if hour > 23 ∨ minute > 59 ∨ second > 60 then none
  match rest with
  | '.' :: digits =>
    let fraction := digits.takeWhile Char.isDigit
    if fraction.isEmpty then none
    return (s.take 8 ++ fractionText fraction, digits.drop fraction.length)
  | _ => return (s.take 8, rest)

/-- The distance from universal time at the beginning of a text; there may be none. -/
def offset? (s : List Char) : Option (List Char × List Char) :=
  match s with
  | 'Z' :: rest | 'z' :: rest => some (['Z'], rest)
  | sign :: rest =>
    if sign = '+' ∨ sign = '-' then do
      let (hours, after) ← fixedNumber? 2 rest
      let ':' :: after := after | none
      let (minutes, after) ← fixedNumber? 2 after
      if hours > 23 ∨ minutes > 59 then none
      let sign := if hours = 0 ∧ minutes = 0 then '+' else sign
      return (sign :: rest.take 5, after)
    else some ([], s)
  | [] => some ([], [])

/-- A date, a time or both at the beginning of a text. -/
def date? (s : List Char) : Option (List Char × List Char) :=
  match day? s with
  | none => time? s
  | some (day, rest) =>
    match rest with
    | c :: after =>
      if c = 'T' ∨ c = 't' ∨ (c = ' ' ∧ after.head?.any Char.isDigit) then do
        let (time, rest) ← time? after
        let (offset, rest) ← offset? rest
        return (day ++ 'T' :: time ++ offset, rest)
      else some (day, rest)
    | [] => some (day, rest)

/-- Whether a text begins as a date or a time does. -/
def beginsDate (s : List Char) : Bool :=
  match s with
  | a :: b :: ':' :: _ => a.isDigit && b.isDigit
  | a :: b :: c :: d :: '-' :: _ => [a, b, c, d].all Char.isDigit
  | _ => false

def isScalarChar (c : Char) : Bool :=
  c.isAlphanum || c == '+' || c == '-' || c == '.' || c == '_'

/-- A value that is written without quotes or brackets. -/
def scalar : Reader Value := do
  let s ← get
  if beginsDate s then
    let some (text, rest) := date? s | failure
    set rest
    return .date (String.ofList text)
  let word ← take isScalarChar
  if word == "true".toList then return .boolean true
  if word == "false".toList then return .boolean false
  if isInteger word || isFloat word then return .number else failure

/-! ## Values -/

mutual

/-- A value inside of `depth` others. -/
def value (fuel depth : Nat) : Reader Value := do
  match fuel with
  | 0 => failure
  | fuel + 1 =>
    match ← peek with
    | some '"' | some '\'' => return .string (← quotedText true)
    | some '[' =>
      literal "["
      if depthLimit ≤ depth + 1 then failure
      return .array (← elements fuel (depth + 1))
    | some '\x7b' =>
      literal "\x7b"
      if depthLimit ≤ depth + 1 then failure
      skipBlanks
      if ← literalIf "\x7d" then return .table .inline []
      return .table .inline (← members fuel (depth + 1) [])
    | _ => scalar

/-- Elements up to the closing bracket; a comma may follow the last one. -/
def elements (fuel depth : Nat) : Reader (List Value) := do
  match fuel with
  | 0 => failure
  | fuel + 1 =>
    skipLines (fuel + 1)
    if ← literalIf "]" then return []
    let v ← value fuel depth
    skipLines (fuel + 1)
    if ← literalIf "," then return v :: (← elements fuel depth)
    literal "]"
    return [v]

/-- Members up to the closing brace, of which there is at least one. -/
def members (fuel depth : Nat) (entries : Entries) : Reader Entries := do
  match fuel with
  | 0 => failure
  | fuel + 1 =>
    let (path, v) ← member fuel depth
    let some last := path.getLast? | failure
    let some entries := addDotted path.dropLast last v entries | failure
    skipBlanks
    if ← literalIf "," then members fuel depth entries
    else
      literal "\x7d"
      return entries

/-- A key and its value. -/
def member (fuel depth : Nat) : Reader (List String × Value) := do
  match fuel with
  | 0 => failure
  | fuel + 1 =>
    let path ← key (fuel + 1)
    literal "="
    skipBlanks
    return (path, ← value fuel depth)

end

/-! ## Documents -/

/-- The keys of a header and its closing. -/
def header (fuel : Nat) (closing : String) : Reader (List String × String) := do
  let path ← key fuel
  literal closing
  lineEnd
  let some last := path.getLast? | failure
  return (path.dropLast, last)

/-- The lines of a document. `current` leads to the table that the last header opened. -/
def lines (fuel : Nat) (current : List String) (root : Entries) : Reader Entries := do
  match fuel with
  | 0 => failure
  | fuel + 1 =>
    skipLines (fuel + 1)
    if (← get).isEmpty then return root
    if ← literalIf "[[" then
      let (path, last) ← header fuel "]]"
      let some root := openElement path last root | failure
      lines fuel (path ++ [last]) root
    else if ← literalIf "[" then
      let (path, last) ← header fuel "]"
      let some root := openTable path last root | failure
      lines fuel (path ++ [last]) root
    else
      let (path, v) ← member fuel 0
      lineEnd
      let some last := path.getLast? | failure
      let some root := alterBelow current (addDotted path.dropLast last v) root | failure
      lines fuel current root

end Reader

/-- The entries of a document; a byte order mark before it is skipped. -/
def Entries.ofText? (text : String) : Option Entries := do
  let s := match text.toList with
    | '\ufeff' :: rest => rest
    | s => s
  let (entries, _) ← Reader.lines (3 * s.length + 3) [] [] |>.run s
  return entries

end SchemaBindings.Toml
