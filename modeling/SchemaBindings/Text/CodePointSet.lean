/-!
Sets of code points, as the tables of Unicode properties need them.
-/

namespace SchemaBindings.Text

/-- A set given by the ascending places where membership flips; everything before the first is
outside. -/
structure CodePointSet where
  flips : List Nat

/-- Membership flips at every place that is not beyond the code point. -/
def flipped : List Nat → Nat → Bool
  | [], _ => false
  | place :: rest, n => if n < place then false else !flipped rest n

def CodePointSet.contains (s : CodePointSet) (c : Char) : Bool :=
  flipped s.flips c.toNat

end SchemaBindings.Text
