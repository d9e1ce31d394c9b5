/-!
Tokens of the generated code, and the text that sets them apart by blanks.
-/

namespace SchemaBindings.Code

inductive Delimiter where
  | paren
  | bracket
  | brace
deriving DecidableEq, Repr

/-- A token. Marks are single characters; `joint` says that the next mark belongs to the same
operator. A lifetime is a joint apostrophe before its name. -/
inductive Token where
  | word (text : String)
  | literal (text : String)
  | mark (c : Char) (joint : Bool)
  | group (delimiter : Delimiter) (inner : List Token)
deriving Repr, Inhabited

namespace Token

/-- The marks of an operator. -/
def operator (text : String) : List Token :=
  go text.toList
where
  go : List Char → List Token
    | [] => []
    | [c] => [.mark c false]
    | c :: rest => .mark c true :: go rest

def comma : Token :=
  .mark ',' false

/-- A lifetime by the name after the apostrophe. -/
def lifetime (name : String) : List Token :=
  [.mark '\'' true, .word name]

end Token

mutual

/-- The text of a token. -/
def spacedToken : Token → String
  | .word text => text
  | .literal text => text
  | .mark c _ => String.singleton c
  | .group .paren inner => "(" ++ spaced inner ++ ")"
  | .group .bracket inner => "[" ++ spaced inner ++ "]"
  | .group .brace [] => "\x7b \x7d"
  | .group .brace (t :: ts) => "\x7b " ++ spaced (t :: ts) ++ " \x7d"

/-- The text of tokens, with a blank after each but the last, the joint marks, and the opening of a
parenthesis or bracket. -/
def spaced : List Token → String
  | [] => ""
  | [t] => spacedToken t
  | t :: u :: ts =>
    let between := match t with
      | .mark _ true => ""
      | _ => " "
    spacedToken t ++ between ++ spaced (u :: ts)

end

mutual

/-- The number of tokens, those in groups included. -/
def weight : Token → Nat
  | .group _ inner => weights inner + 1
  | _ => 1

def weights : List Token → Nat
  | [] => 0
  | t :: rest => weight t + weights rest

end

end SchemaBindings.Code
