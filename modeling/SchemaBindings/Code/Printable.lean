import SchemaBindings.Code.Tree.PartTest
import SchemaBindings.Failure

/-!
Which trees can be laid out: those in which everything is known. A part of which only the tokens are
known can be read but not laid out.
-/

namespace SchemaBindings.Code

/-- The tests that everything in a tree is known. -/
def known : PartTest where
  type
    | .verbatim _ => false
    | _ => true
  bound
    | .verbatim _ => false
    | _ => true
  expr
    | .verbatim _ => false
    | _ => true
  pattern
    | .verbatim _ => false
    | _ => true
  inMarks := true
  item results assemble :=
    (assemble (results.map fun known => if known then .ofDocs [] else .ofTokens [])).layout.isSome

def Function.isKnown (f : Function) : Bool :=
  f.parameters.all (·.type.all known) && f.output.all known && allStatements known f.body

def Constant.isKnown (c : Constant) : Bool :=
  c.type.all known && c.value.all known

mutual

def Item.isKnown : Item → Bool
  | .use .. | .moduleFile _ | .unit .. => true
  | .module _ _ items => itemsAreKnown items
  | .struct _ _ fields => fields.all (·.type.all known)
  | .enum _ _ variants => variants.all (·.discriminant.all known)
  | .implementation self constant functions =>
    self.all known && constant.all Constant.isKnown && functions.all Function.isKnown
  | .other parts assemble => known.item (partResults known parts) assemble

def itemsAreKnown : List Item → Bool
  | [] => true
  | i :: rest => i.isKnown && itemsAreKnown rest

end

/-- The file itself, which is refused if it could not be laid out. -/
def File.printable (f : File) : Except Failure File :=
  if itemsAreKnown f.items then .ok f else .error .unprintable

end SchemaBindings.Code
