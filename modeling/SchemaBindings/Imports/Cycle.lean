import SchemaBindings.ModuleId

/-!
Cycles among the imports of modules: the edges that close one in a search from every module in
order, and the modules that cannot be put into an order without cycles.
-/

namespace SchemaBindings.Imports

/-- For every module the modules that it imports from, both sorted. -/
abbrev Graph := List (ModuleId × List ModuleId)

/-- An importer and the module that it imports from. -/
abbrev Edge := ModuleId × ModuleId

namespace Graph

def targets (g : Graph) (m : ModuleId) : List ModuleId :=
  (g.lookup m).getD []

end Graph

/-! ## Edges that close a cycle -/

/-- What a search has met: the modules it is done with, and the edges that led back. -/
structure Search where
  closed : List ModuleId := []
  found : List Edge := []
deriving Repr

mutual

/-- Searches from a module. `stack` holds the modules that the search came through; each of them is
a module of the graph and none occurs twice, so the graph's size is fuel enough. -/
def visit (g : Graph) (fuel : Nat) (stack : List ModuleId) (m : ModuleId) (s : Search) : Search :=
  match fuel with
  | 0 => s
  | fuel + 1 =>
    let s := visitAll g fuel (m :: stack) m (g.targets m) s
    { s with closed := m :: s.closed }

/-- Follows the edges from `m` to some of its targets. An edge to a module on the stack leads
back. -/
def visitAll (g : Graph) (fuel : Nat) (stack : List ModuleId) (m : ModuleId) :
    List ModuleId → Search → Search
  | [], s => s
  | target :: rest, s =>
    let s := if stack.contains target then { s with found := (m, target) :: s.found }
      else if s.closed.contains target then s
      else visit g fuel stack target s
    visitAll g fuel stack m rest s

end

/-- The edges that lead back in a search that begins at every module in order. -/
def backEdges (g : Graph) : List Edge :=
  let search (s : Search) (m : ModuleId) : Search :=
    if s.closed.contains m then s else visit g (g.length + 1) [] m s
  ((g.map (·.1)).foldl search {}).found

/-! ## Modules that no order can hold -/

/-- The edges of a graph that are not left out. -/
def keptTargets (g : Graph) (leftOut : List Edge) (m : ModuleId) : List ModuleId :=
  (g.targets m).filter fun target => !leftOut.contains (m, target)

/-- The modules that still wait, each with the number of waiting importers, and those that are ready
because none is left. -/
structure Countdown where
  waiting : List (ModuleId × Nat)
  ready : List ModuleId
deriving Repr

namespace Countdown

/-- Counts one more importer of a module. -/
def count (waiting : List (ModuleId × Nat)) (m : ModuleId) : List (ModuleId × Nat) :=
  match waiting with
  | [] => [(m, 1)]
  | (n, k) :: rest =>
    if m == n then (n, k + 1) :: rest
    else if m.before n then (m, 1) :: (n, k) :: rest
    else (n, k) :: count rest m

/-- Puts a module among the waiting ones. -/
def add (waiting : List (ModuleId × Nat)) (m : ModuleId) : List (ModuleId × Nat) :=
  match waiting with
  | [] => [(m, 0)]
  | (n, k) :: rest =>
    if m == n then (n, k) :: rest
    else if m.before n then (m, 0) :: (n, k) :: rest
    else (n, k) :: add rest m

/-- All modules of a graph, with the numbers of their importers. -/
def start (g : Graph) (leftOut : List Edge) : Countdown :=
  let waiting := g.foldl (fun waiting (m, _) =>
    (keptTargets g leftOut m).foldl count (add waiting m)) []
  ⟨waiting, (waiting.filter (·.2 == 0)).map (·.1)⟩

/-- One importer of a module is done. The module is ready when it was the last. -/
def release (c : Countdown) (m : ModuleId) : Countdown :=
  match c.waiting.lookup m with
  | none => c
  | some k =>
    { waiting := c.waiting.map fun (n, j) => if n == m then (n, j - 1) else (n, j)
      ready := if k - 1 = 0 then m :: c.ready else c.ready }

/-- Takes a ready module away and releases what it imports from. -/
def step (g : Graph) (leftOut : List Edge) (c : Countdown) : Countdown :=
  match c.ready with
  | [] => c
  | m :: ready =>
    (keptTargets g leftOut m).foldl release
      { waiting := c.waiting.filter (·.1 != m), ready }

/-- Steps as long as a module is ready; each takes one away, which bounds their number. -/
def run (g : Graph) (leftOut : List Edge) : Nat → Countdown → Countdown
  | 0, c => c
  | fuel + 1, c => if c.ready.isEmpty then c else run g leftOut fuel (c.step g leftOut)

end Countdown

/-- The modules that wait for ever: those on a cycle of the kept edges and those behind one. -/
def unordered (g : Graph) (leftOut : List Edge) : List ModuleId :=
  let c := Countdown.start g leftOut
  (c.run g leftOut c.waiting.length).waiting.map (·.1)

end SchemaBindings.Imports
