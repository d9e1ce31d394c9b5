import SchemaBindings.Json

/-!
The two written forms of a JSON value: compact, without any blank, and indented by two blanks a
level. In both, the only characters written as escapes are the quote, the backslash and the control
characters.
-/

namespace SchemaBindings.Json

/-- A hexadecimal digit in lowercase. -/
def hexDigit (n : Nat) : Char :=
  if n < 10 then Char.ofNat (48 + n) else Char.ofNat (87 + n)

def escapedChar (c : Char) : List Char :=
  if c = '"' then ['\\', '"']
  else if c = '\\' then ['\\', '\\']
  else if c.toNat = 8 then ['\\', 'b']
  else if c.toNat = 9 then ['\\', 't']
  else if c.toNat = 10 then ['\\', 'n']
  else if c.toNat = 12 then ['\\', 'f']
  else if c.toNat = 13 then ['\\', 'r']
  else if c.toNat < 32 then ['\\', 'u', '0', '0', hexDigit (c.toNat / 16), hexDigit (c.toNat % 16)]
  else [c]

def quoted (s : String) : List Char :=
  '"' :: (s.toList.flatMap escapedChar ++ ['"'])

/-- The decimal digits of a number, with a sign if it is negative. -/
def integerText (n : Int) : List Char :=
  if n < 0 then '-' :: Nat.toDigits 10 n.natAbs else Nat.toDigits 10 n.natAbs

mutual

/-- The compact form. -/
def compact : Value → List Char
  | .null => "null".toList
  | .bool true => "true".toList
  | .bool false => "false".toList
  | .integer n => integerText n
  | .fraction => ['0', '.', '0']
  | .string s => quoted (s.getD "")
  | .array [] => ['[', ']']
  | .array (v :: vs) => '[' :: (compact v ++ compactElements vs)
  | .object [] => ['\x7b', '\x7d']
  | .object ((key, v) :: members) =>
    '\x7b' :: (quoted (key.getD "") ++ ':' :: (compact v ++ compactMembers members))

def compactElements : List Value → List Char
  | [] => [']']
  | v :: vs => ',' :: (compact v ++ compactElements vs)

def compactMembers : List (Option String × Value) → List Char
  | [] => ['\x7d']
  | (key, v) :: members =>
    ',' :: (quoted (key.getD "") ++ ':' :: (compact v ++ compactMembers members))

end

def newline (level : Nat) : List Char :=
  '\n' :: List.replicate (2 * level) ' '

mutual

/-- The indented form of a value that stands at a level; an empty array or object stays on its
line. -/
def indented (level : Nat) : Value → List Char
  | .array [] => ['[', ']']
  | .array (v :: vs) =>
    '[' :: (newline (level + 1) ++ indented (level + 1) v ++ indentedElements level vs)
  | .object [] => ['\x7b', '\x7d']
  | .object ((key, v) :: members) =>
    '\x7b' :: (newline (level + 1) ++ quoted (key.getD "") ++ [':', ' '] ++
      indented (level + 1) v ++ indentedMembers level members)
  | .null => "null".toList
  | .bool true => "true".toList
  | .bool false => "false".toList
  | .integer n => integerText n
  | .fraction => ['0', '.', '0']
  | .string s => quoted (s.getD "")

def indentedElements (level : Nat) : List Value → List Char
  | [] => newline level ++ [']']
  | v :: vs => ',' :: (newline (level + 1) ++ indented (level + 1) v ++ indentedElements level vs)

def indentedMembers (level : Nat) : List (Option String × Value) → List Char
  | [] => newline level ++ ['\x7d']
  | (key, v) :: members =>
    ',' :: (newline (level + 1) ++ quoted (key.getD "") ++ [':', ' '] ++ indented (level + 1) v ++
      indentedMembers level members)

end

def Value.compactText (v : Value) : String :=
  String.ofList (compact v)

def Value.indentedText (v : Value) : String :=
  String.ofList (indented 0 v)

end SchemaBindings.Json
