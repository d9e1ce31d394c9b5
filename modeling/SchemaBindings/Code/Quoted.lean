import SchemaBindings.Text.PrintableClass

/-!
String literals of the generated code. Quotes, backslashes and the common control characters have
short escapes; a character that would not show for itself is written by its code point.
-/

namespace SchemaBindings.Code

/-- A code point in braces after `\u`. -/
def codePointEscape (c : Char) : List Char :=
  "\\u\x7b".toList ++ Nat.toDigits 16 c.toNat ++ ['\x7d']

/-- A character of a literal; `next` is the one after it, since a zero before an octal digit is
written in full. -/
def literalChar (c : Char) (next : Option Char) : List Char :=
  if c.toNat = 0 then
    if next.any (fun d => '0' ≤ d && d ≤ '7') then "\\x00".toList else "\\0".toList
  else if c = '\t' then "\\t".toList
  else if c = '\r' then "\\r".toList
  else if c = '\n' then "\\n".toList
  else if c = '"' then "\\\"".toList
  else if c = '\\' then "\\\\".toList
  else if Text.isPlainlyPrintable c then [c]
  else codePointEscape c

def literalChars : List Char → List Char
  | [] => []
  | c :: rest => literalChar c rest.head? ++ literalChars rest

/-- The literal that stands for a text. -/
def quoted (s : String) : String :=
  String.ofList ('"' :: (literalChars s.toList ++ ['"']))

end SchemaBindings.Code
