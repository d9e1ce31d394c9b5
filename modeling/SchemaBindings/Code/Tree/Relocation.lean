import SchemaBindings.Code.Tree.MapTypes

/-!
Replacing the first name of types by a longer path. Only types that are plain paths and do not begin
at the root are replaced; steps to the enclosing module before the name go away. The arguments of
every path are searched for such types too.
-/

namespace SchemaBindings.Code

/-- The path that each name is to be found behind. -/
abbrev Relocation := List (String × Path)

/-- The path with its first name put behind the one found for it. -/
def Path.relocateHead (r : Relocation) (p : Path) : Path :=
  if p.leading then p
  else
    let rest := p.segments.dropWhile (·.ident.text == "super")
    match rest with
    | [] => p
    | head :: _ =>
      match r.lookup head.ident.text with
      | none => p
      | some target => .mk target.leading (target.segments ++ rest)

/-- The type itself with its first name relocated, but not the types in it. -/
def Ty.relocateHead (r : Relocation) : Ty → Ty
  | .path p => .path (p.relocateHead r)
  | .applied p args => .applied (p.relocateHead r) args
  | t => t

def Ty.relocate (r : Relocation) (t : Ty) : Ty :=
  t.mapTypes (Ty.relocateHead r)

def Expr.relocate (r : Relocation) (e : Expr) : Expr :=
  e.mapTypes (Ty.relocateHead r)

def Statement.relocate (r : Relocation) (s : Statement) : Statement :=
  s.mapTypes (Ty.relocateHead r)

def Function.relocate (r : Relocation) (f : Function) : Function :=
  { f with
    parameters := f.parameters.map fun p => { p with type := p.type.relocate r }
    output := f.output.relocate r
    body := f.body.map (·.relocate r) }

def StructField.relocate (r : Relocation) (f : StructField) : StructField :=
  { f with type := f.type.relocate r }

def Variant.relocate (r : Relocation) (v : Variant) : Variant :=
  { v with discriminant := v.discriminant.relocate r }

def Constant.relocate (r : Relocation) (c : Constant) : Constant :=
  { c with type := c.type.relocate r, value := c.value.relocate r }

mutual

def Item.relocate (r : Relocation) : Item → Item
  | .use module names => .use module names
  | .moduleFile name => .moduleFile name
  | .module attributes name items => .module attributes name (relocateItems r items)
  | .struct attributes name fields => .struct attributes name (fields.map (·.relocate r))
  | .unit attributes name => .unit attributes name
  | .enum attributes name variants => .enum attributes name (variants.map (·.relocate r))
  | .implementation self constant functions =>
    .implementation (self.relocate r) (constant.map (·.relocate r)) (functions.map (·.relocate r))
  | .other parts assemble => .other (mapParts (Ty.relocateHead r) parts) assemble

def relocateItems (r : Relocation) : List Item → List Item
  | [] => []
  | i :: rest => i.relocate r :: relocateItems r rest

end

def File.relocate (r : Relocation) (f : File) : File :=
  { f with items := relocateItems r f.items }

end SchemaBindings.Code
