/-!
Values of the TOML format, and the building of nested tables from keys with dots.
-/

namespace SchemaBindings.Toml

/-- How a table came to be, which decides what may be added to it later. -/
inductive TableOrigin where
  /-- By its own header; the whole document counts as such. -/
  | header
  /-- By the header of a table inside it. -/
  | implicit
  /-- By a dotted key. -/
  | dotted
  /-- As a value in braces, which is complete. -/
  | inline
deriving DecidableEq, Repr

/-- A TOML value. Numbers and dates are kept as far as they can be told apart: nothing but the text
of a date is ever asked for. -/
inductive Value where
  | string (text : String)
  | boolean (b : Bool)
  | number
  | date (text : String)
  | array (elements : List Value)
  | table (origin : TableOrigin) (entries : List (String × Value))
  /-- Tables with one header each; their entries, the last table first. -/
  | tables (reversed : List (List (String × Value)))
deriving Inhabited

/-- Entries of a table, in the order in which they were added. -/
abbrev Entries := List (String × Value)

namespace Entries

/-- Gives a key the value made from the one it has. -/
def alter (entries : Entries) (key : String) (f : Option Value → Option Value) : Option Entries :=
  match entries with
  | [] => do return [(key, ← f none)]
  | (k, v) :: rest =>
    if k == key then do return (k, ← f (some v)) :: rest
    else do return (k, v) :: (← alter rest key f)

/-- Adds an entry whose key is new. -/
def add (entries : Entries) (key : String) (value : Value) : Option Entries :=
  entries.alter key fun
    | none => some value
    | some _ => none

end Entries

/-- Changes the table that a header's keys lead to. Tables on the way are made where they are
missing; among tables with one header each the last one is meant. -/
def alterBelow (path : List String) (f : Entries → Option Entries) (entries : Entries) :
    Option Entries :=
  match path with
  | [] => f entries
  | key :: rest => entries.alter key fun
    | none => do return .table .implicit (← alterBelow rest f [])
    | some (.table .inline _) => none
    | some (.table origin inner) => do return .table origin (← alterBelow rest f inner)
    | some (.tables (last :: others)) => do return .tables ((← alterBelow rest f last) :: others)
    | some _ => none

/-- Adds an entry under a key with dots. Only tables made by dotted keys are extended: on the way
also those made by the header of an inner table, at the end not. -/
def addDotted (path : List String) (key : String) (value : Value) (entries : Entries) :
    Option Entries :=
  match path with
  | [] => entries.add key value
  | step :: rest => entries.alter step fun
    | none => do return .table .dotted (← addDotted rest key value [])
    | some (.table origin inner) =>
      if origin = .dotted ∨ (origin = .implicit ∧ !rest.isEmpty) then do
        return .table origin (← addDotted rest key value inner)
      else none
    | some (.tables (last :: others)) =>
      if rest.isEmpty then none
      else do return .tables ((← addDotted rest key value last) :: others)
    | some _ => none

/-- Opens the table of a header, which may have been made by the header of an inner table. -/
def openTable (path : List String) (key : String) (root : Entries) : Option Entries :=
  alterBelow path (fun entries => entries.alter key fun
    | none => some (.table .header [])
    | some (.table .implicit inner) => some (.table .header inner)
    | some _ => none) root

/-- Opens one more table under a header of its kind. -/
def openElement (path : List String) (key : String) (root : Entries) : Option Entries :=
  alterBelow path (fun entries => entries.alter key fun
    | none => some (.tables [[]])
    | some (.tables ts) => some (.tables ([] :: ts))
    | some _ => none) root

end SchemaBindings.Toml
