/-!
Tokens of schema sources.
-/

namespace SchemaBindings.Proto

inductive Token where
  | word (name : String)
  | integer (n : Nat)
  /-- A number that is no integer; of its value only that it is zero matters. -/
  | fraction (isZero : Bool)
  | text (bytes : List UInt8)
  | mark (c : Char)
deriving DecidableEq, Repr, Inhabited

/-- A token with the comment that documents what begins with it. -/
structure Lexeme where
  token : Token
  leading : Option String := none
deriving Repr, Inhabited

end SchemaBindings.Proto
