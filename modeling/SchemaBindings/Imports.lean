import SchemaBindings.Lookup
import SchemaBindings.ModuleId

/-!
The names that a module imports from other modules.
-/

namespace SchemaBindings

/-- The source of every imported name, sorted by name. -/
structure ImportSet where
  entries : List (String × ModuleId) := []
deriving DecidableEq, Repr, Inhabited

namespace ImportSet

def get? (s : ImportSet) (name : String) : Option ModuleId :=
  s.entries.lookup name

/-- Imports a name from a module, unless it is imported from another one; says whether the name now
comes from this module. -/
def insert (s : ImportSet) (name : String) (module : ModuleId) : Bool × ImportSet :=
  match s.get? name with
  | some source => (source == module, s)
  | none => (true, ⟨insertByName name module s.entries⟩)

/-- The source of a name never changes. -/
theorem get?_insert (s : ImportSet) (name : String) (module : ModuleId) (k : String) :
    (s.insert name module).2.get? k =
      if k == name then some ((s.get? name).getD module) else s.get? k := by
  unfold insert
  cases h : s.get? name with
  | some source => grind
  | none => simp [get?, lookup_insertByName]

/-- The modules that something is imported from, sorted. -/
def modules (s : ImportSet) : List ModuleId :=
  s.entries.foldl (fun ms (_, m) => insertModule m ms) []
where
  insertModule (m : ModuleId) : List ModuleId → List ModuleId
    | [] => [m]
    | n :: rest =>
      if m == n then n :: rest
      else if m.before n then m :: n :: rest
      else n :: insertModule m rest

theorem mem_insertModule {m n : ModuleId} {ms : List ModuleId} :
    n ∈ modules.insertModule m ms ↔ n = m ∨ n ∈ ms := by
  induction ms with
  | nil => simp [modules.insertModule]
  | cons head rest ih => grind [modules.insertModule]

theorem mem_modules {s : ImportSet} {m : ModuleId} :
    m ∈ s.modules ↔ ∃ name, (name, m) ∈ s.entries := by
  have grow (entries : List (String × ModuleId)) (ms : List ModuleId) :
      m ∈ entries.foldl (fun ms (_, m) => modules.insertModule m ms) ms ↔
        m ∈ ms ∨ ∃ name, (name, m) ∈ entries := by
    induction entries generalizing ms with
    | nil => simp
    | cons entry rest ih =>
      obtain ⟨name, source⟩ := entry
      rw [List.foldl_cons, ih, mem_insertModule]
      grind
  simpa [modules] using grow s.entries []

end ImportSet

end SchemaBindings
