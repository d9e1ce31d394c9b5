/-!
Values of the JSON format.
-/

namespace SchemaBindings.Json

/-- A JSON value. A text is missing where its escapes name no character, which does no harm as long
as nobody asks for it. -/
inductive Value where
  | null
  | bool (b : Bool)
  | integer (n : Int)
  /-- A number written with a fraction or an exponent, or the negative zero. -/
  | fraction
  | string (text : Option String)
  | array (elements : List Value)
  | object (members : List (Option String × Value))
deriving Inhabited

def Value.text (s : String) : Value :=
  .string (some s)

def Value.ofOption (f : α → Value) : Option α → Value
  | none => .null
  | some a => f a

/-- An object with the given keys, in order. -/
def Value.record (members : List (String × Value)) : Value :=
  .object (members.map fun (key, value) => (some key, value))

/-- The value of the first member with the key. -/
def Value.get? (v : Value) (key : String) : Option Value :=
  match v with
  | .object members => members.lookup (some key)
  | _ => none

end SchemaBindings.Json
