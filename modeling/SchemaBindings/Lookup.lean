/-!
Tables sorted by their keys.
-/

namespace SchemaBindings

/-- Puts an entry in its place in a sorted table; an entry with the same key is replaced. -/
def insertSorted [BEq κ] (before : κ → κ → Bool) (key : κ) (value : α) : List (κ × α) → List (κ × α)
  | [] => [(key, value)]
  | (k, v) :: rest =>
    if key == k then (key, value) :: rest
    else if before key k then (key, value) :: (k, v) :: rest
    else (k, v) :: insertSorted before key value rest

/-- What is found in a table after an insertion does not depend on the order of its entries. -/
theorem lookup_insertSorted [BEq κ] [LawfulBEq κ] (before : κ → κ → Bool) (key : κ) (value : α)
    (table : List (κ × α)) (k : κ) :
    (insertSorted before key value table).lookup k =
      if k == key then some value else table.lookup k := by
  induction table with
  | nil => grind [insertSorted]
  | cons entry rest ih => grind [insertSorted]

/-- Puts an entry in its place in a table sorted by text. -/
def insertByName (key : String) (value : α) (table : List (String × α)) : List (String × α) :=
  insertSorted (fun a b => decide (a < b)) key value table

theorem lookup_insertByName (key : String) (value : α) (table : List (String × α)) (k : String) :
    (insertByName key value table).lookup k = if k == key then some value else table.lookup k :=
  lookup_insertSorted _ key value table k

def sortedByName (entries : List (String × α)) : List (String × α) :=
  entries.foldl (fun table (key, value) => insertByName key value table) []

/-- Puts a name in its place among sorted names, once. -/
def insertName (name : String) : List String → List String
  | [] => [name]
  | n :: rest =>
    if name == n then n :: rest
    else if name < n then name :: n :: rest
    else n :: insertName name rest

theorem mem_insertName {n name : String} {names : List String} :
    n ∈ insertName name names ↔ n = name ∨ n ∈ names := by
  induction names with
  | nil => simp [insertName]
  | cons head rest ih => grind [insertName]

end SchemaBindings
