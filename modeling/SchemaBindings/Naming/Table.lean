import SchemaBindings.Failure

/-!
The names taken in one scope. A name is claimed either strictly, which fails when it is taken, or
loosely, which moves on to the first free name made by appending underscores.
-/

namespace SchemaBindings.Naming

/-- The names claimed so far in a scope, the last one first, and the names nobody may claim. -/
structure Table where
  scope : String
  reserved : List String := []
  assigned : List String := []
deriving Repr

namespace Table

def contains (t : Table) (name : String) : Bool :=
  t.assigned.contains name

@[simp] theorem contains_eq_true {t : Table} {name : String} :
    t.contains name = true ↔ name ∈ t.assigned := by
  simp [contains]

/-- Claims exactly one name: the name itself, or with one underscore if it is reserved. -/
def assign (t : Table) (name : String) : Except Failure (String × Table) :=
  let candidate := if t.reserved.contains name then name ++ "_" else name
  if t.contains candidate then .error (.nameCollision t.scope candidate)
  else .ok (candidate, { t with assigned := candidate :: t.assigned })

/-- The first name outside `taken` among `name` and the names made from it with up to `more`
underscores, and the last of these if all are taken. -/
def firstFree (taken : List String) : Nat → String → String
  | 0, name => name
  | more + 1, name => if taken.contains name then firstFree taken more (name ++ "_") else name

/-- A free name is kept as it is. -/
theorem firstFree_of_notMem {taken : List String} {more : Nat} {name : String}
    (h : name ∉ taken) : firstFree taken more name = name := by
  cases more <;> simp [firstFree, h]

/-- Claims the first free name made by appending underscores; one more name is tried than there are
taken ones, so a free one is met. -/
def assignUnique (t : Table) (name : String) : String × Table :=
  let taken := t.reserved ++ t.assigned
  let free := firstFree taken taken.length name
  (free, { t with assigned := free :: t.assigned })

end Table

end SchemaBindings.Naming
