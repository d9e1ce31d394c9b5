import SchemaBindings.Json

/-!
Reading one JSON value from a text that holds nothing else.
-/

namespace SchemaBindings.Json

def isBlank (c : Char) : Bool :=
  c == ' ' || c == '\n' || c == '\t' || c == '\r'

def skipBlanks (s : List Char) : List Char :=
  s.dropWhile isBlank

def hexValue? (c : Char) : Option Nat :=
  if '0' ≤ c ∧ c ≤ '9' then some (c.toNat - 48)
  else if 'a' ≤ c ∧ c ≤ 'f' then some (c.toNat - 87)
  else if 'A' ≤ c ∧ c ≤ 'F' then some (c.toNat - 55)
  else none

/-- The number that four hexadecimal digits write. -/
def hexQuad? : List Char → Option (Nat × List Char)
  | a :: b :: c :: d :: rest => do
    let a ← hexValue? a
    let b ← hexValue? b
    let c ← hexValue? c
    let d ← hexValue? d
    return (((a * 16 + b) * 16 + c) * 16 + d, rest)
  | _ => none

/-- The character after a backslash other than `u`. -/
def simpleEscape? : Char → Option Char
  | '"' => some '"'
  | '\\' => some '\\'
  | '/' => some '/'
  | 'b' => some (Char.ofNat 8)
  | 'f' => some (Char.ofNat 12)
  | 'n' => some '\n'
  | 'r' => some '\r'
  | 't' => some '\t'
  | _ => none

/-- What an escape of code units stands for: a character, or nothing where a surrogate stands
alone. The rest begins after every unit that belongs to it. -/
def unicodeEscape? (s : List Char) : Option (Option Char × List Char) := do
  let (unit, rest) ← hexQuad? s
  if 0xDC00 ≤ unit ∧ unit ≤ 0xDFFF then return (none, rest)
  if unit < 0xD800 ∨ 0xDFFF < unit then return (some (Char.ofNat unit), rest)
  match rest with
  | '\\' :: 'u' :: low =>
    match hexQuad? low with
    | none => none
    | some (second, rest') =>
      if 0xDC00 ≤ second ∧ second ≤ 0xDFFF then
        return (some (Char.ofNat (0x10000 + (unit - 0xD800) * 1024 + (second - 0xDC00))), rest')
      else return (none, rest)
  | _ => return (none, rest)

/-- The rest of a text after its opening quote. -/
def readText (fuel : Nat) (s : List Char) : Option (Option (List Char) × List Char) :=
  match fuel, s with
  | 0, _ | _, [] => none
  | fuel + 1, c :: rest =>
    if c = '"' then some (some [], rest)
    else if c.toNat < 32 then none
    else if c = '\\' then
      match rest with
      | 'u' :: digits => do
        let (char, rest) ← unicodeEscape? digits
        let (tail, rest) ← readText fuel rest
        return (do return (← char) :: (← tail), rest)
      | e :: rest => do
        let char ← simpleEscape? e
        let (tail, rest) ← readText fuel rest
        return (tail.map (char :: ·), rest)
      | [] => none
    else do
      let (tail, rest) ← readText fuel rest
      return (tail.map (c :: ·), rest)

def decimal (digits : List Char) : Nat :=
  digits.foldl (fun n c => n * 10 + (c.toNat - 48)) 0

/-- The digits of a number's whole part: a lone zero or digits that do not begin with one. -/
def readWhole? : List Char → Option (List Char × List Char)
  | '0' :: rest => if rest.head?.any (·.isDigit) then none else some (['0'], rest)
  | s =>
    let digits := s.takeWhile (·.isDigit)
    if digits.isEmpty then none else some (digits, s.dropWhile (·.isDigit))

/-- Digits, of which there is at least one. -/
def skipDigits? (s : List Char) : Option (List Char) :=
  if s.head?.any (·.isDigit) then some (s.dropWhile (·.isDigit)) else none

/-- An optional fraction and an optional exponent, and whether there was one of them. -/
def skipFraction? (s : List Char) : Option (Bool × List Char) := do
  let (dotted, s) ← match s with
    | '.' :: rest => do return (true, ← skipDigits? rest)
    | _ => some (false, s)
  match s with
  | 'e' :: '+' :: rest | 'e' :: '-' :: rest | 'E' :: '+' :: rest | 'E' :: '-' :: rest
  | 'e' :: rest | 'E' :: rest => return (true, ← skipDigits? rest)
  | _ => return (dotted, s)

def readNumber? (s : List Char) : Option (Value × List Char) := do
  let (negative, s) := match s with
    | '-' :: rest => (true, rest)
    | _ => (false, s)
  let (digits, rest) ← readWhole? s
  let (fractional, rest) ← skipFraction? rest
  let n := decimal digits
  if fractional ∨ (negative ∧ n = 0) then return (.fraction, rest)
  return (.integer (if negative then -(n : Int) else n), rest)

mutual

/-- One value at the beginning of a text. Every step takes a character, so the length of the text is
fuel enough. -/
def readValue (fuel : Nat) (s : List Char) : Option (Value × List Char) :=
  match fuel with
  | 0 => none
  | fuel + 1 =>
    match skipBlanks s with
    | 'n' :: 'u' :: 'l' :: 'l' :: rest => some (.null, rest)
    | 't' :: 'r' :: 'u' :: 'e' :: rest => some (.bool true, rest)
    | 'f' :: 'a' :: 'l' :: 's' :: 'e' :: rest => some (.bool false, rest)
    | '"' :: rest => do
      let (text, rest) ← readText (rest.length + 1) rest
      return (.string (text.map String.ofList), rest)
    | '[' :: rest =>
      match skipBlanks rest with
      | ']' :: rest => some (.array [], rest)
      | rest => do
        let (elements, rest) ← readElements fuel rest
        return (.array elements, rest)
    | '\x7b' :: rest =>
      match skipBlanks rest with
      | '\x7d' :: rest => some (.object [], rest)
      | rest => do
        let (members, rest) ← readMembers fuel rest
        return (.object members, rest)
    | rest => readNumber? rest

/-- The elements of an array up to its closing bracket, of which there is at least one. -/
def readElements (fuel : Nat) (s : List Char) : Option (List Value × List Char) :=
  match fuel with
  | 0 => none
  | fuel + 1 => do
    let (v, rest) ← readValue fuel s
    match skipBlanks rest with
    | ']' :: rest => return ([v], rest)
    | ',' :: rest =>
      let (vs, rest) ← readElements fuel rest
      return (v :: vs, rest)
    | _ => none

/-- The members of an object up to its closing brace, of which there is at least one. -/
def readMembers (fuel : Nat) (s : List Char) : Option (List (Option String × Value) × List Char) :=
  match fuel with
  | 0 => none
  | fuel + 1 =>
    match skipBlanks s with
    | '"' :: rest => do
      let (key, rest) ← readText (rest.length + 1) rest
      match skipBlanks rest with
      | ':' :: rest =>
        let (v, rest) ← readValue fuel rest
        let member := (key.map String.ofList, v)
        match skipBlanks rest with
        | '\x7d' :: rest => return ([member], rest)
        | ',' :: rest =>
          let (members, rest) ← readMembers fuel rest
          return (member :: members, rest)
        | _ => none
      | _ => none
    | _ => none

end

/-- The value a text holds, if it holds exactly one and blanks around it. -/
def Value.ofText? (text : String) : Option Value := do
  let s := text.toList
  let (v, rest) ← readValue (2 * s.length + 2) s
  if (skipBlanks rest).isEmpty then return v else none

end SchemaBindings.Json
