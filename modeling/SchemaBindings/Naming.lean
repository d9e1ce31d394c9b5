import SchemaBindings.Text.Words

/-!
From schema names to the names of generated items. A name that would be a reserved word, be empty or
begin with a digit is changed by the least that makes it usable.
-/

namespace SchemaBindings.Naming

/-- The words that the generated language reserves, in any of its editions. -/
def reservedWords : List String :=
  ["abstract", "as", "async", "await", "become", "box", "break", "const", "continue", "crate", "do",
   "dyn", "else", "enum", "extern", "false", "final", "fn", "for", "gen", "if", "impl", "in", "let",
   "loop", "macro", "match", "mod", "move", "mut", "override", "priv", "pub", "ref", "return",
   "Self", "self", "static", "struct", "super", "trait", "true", "try", "type", "typeof", "unsafe",
   "unsized", "use", "virtual", "where", "while", "yield"]

def isReserved (name : String) : Bool :=
  reservedWords.contains name

/-- A reserved word gets an underscore at its end. -/
def safeIdentifier (name : String) : String :=
  if isReserved name then name ++ "_" else name

/-- The name itself where it can stand, with an underscore before a leading digit, and the fallback
where it is empty. -/
def usableIdentifier (name fallback : String) : String :=
  match name.toList with
  | [] => fallback
  | c :: _ => if c.isDigit then "_" ++ name else safeIdentifier name

def fieldName (name : String) : String :=
  usableIdentifier (Text.snakeCase name) "field"

def methodName (name : String) : String :=
  usableIdentifier (Text.snakeCase name) "method"

def moduleName (name : String) : String :=
  usableIdentifier (Text.snakeCase name) "module"

def variantName (name : String) : String :=
  usableIdentifier (Text.upperCamelCase name) "Variant"

/-- The names of types are kept as the schema spells them. -/
def typeName (name : String) : String :=
  safeIdentifier name

end SchemaBindings.Naming
