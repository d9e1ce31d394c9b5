import SchemaBindings.Proofs.Imports.Conservation

/-!
Modules that no imports lead between do not matter to each other: on its own, a part of the graph
that no edge leads into or out of has exactly the edges that lead back in it.
-/

namespace SchemaBindings.Imports

/-- A graph of a part of the modules of another one, with all their edges. None of these leaves the
part, and no other edge leads into it. -/
structure Component (g : Graph) (part : ModuleId → Bool) (own : Graph) : Prop where
  keys : own.map (·.1) = (g.map (·.1)).filter part
  targets : ∀ m, part m = true → own.targets m = g.targets m
  apart : ∀ m, ∀ t ∈ g.targets m, part t = part m

namespace Search

/-- What a search has met in a part of the modules. -/
def within (part : ModuleId → Bool) (s : Search) : Search where
  closed := s.closed.filter part
  found := s.found.filter (part ·.1)

/-- The fuel is enough for a search with the stack, which holds modules with edges only. -/
structure Fueled (g : Graph) (fuel : Nat) (stack : List ModuleId) : Prop where
  nodup : stack.Nodup
  keys : stack ⊆ g.map (·.1)
  enough : g.length < stack.length + fuel

variable {g own : Graph} {part : ModuleId → Bool} {fuel fuel' : Nat} {stack : List ModuleId}
  {m : ModuleId} {s : Search}

theorem not_fueled_zero : ¬ Fueled g 0 stack := by
  intro h
  have hle := (List.subperm_of_subset h.nodup h.keys).length_le
  have henough := h.enough
  rw [List.length_map] at hle
  omega

theorem Fueled.push (h : Fueled g (fuel + 1) stack) (hm : m ∉ stack) (hkey : m ∈ g.map (·.1)) :
    Fueled g fuel (m :: stack) where
  nodup := List.nodup_cons.mpr ⟨hm, h.nodup⟩
  keys := List.cons_subset.mpr ⟨hkey, h.keys⟩
  enough := by
    have henough := h.enough
    rw [List.length_cons]
    omega

/-! ## In the part -/

/-- The edges of a module of the part, given that a search from any of their targets is one in the
part. -/
private theorem visitAll_within (h : Component g part own) (hm : part m = true)
    {targets : List ModuleId} (hsub : targets ⊆ g.targets m)
    (search : ∀ t ∈ targets, t ∉ m :: stack → ∀ s,
      (visit g fuel (m :: stack) t s).within part =
        visit own fuel' (m :: stack) t (s.within part)) (s : Search) :
    (visitAll g fuel (m :: stack) m targets s).within part =
      visitAll own fuel' (m :: stack) m targets (s.within part) := by
  induction targets generalizing s with
  | nil => rw [visitAll, visitAll]
  | cons t rest ih =>
    obtain ⟨ht, hrest⟩ := List.cons_subset.mp hsub
    have hpart : part t = true := (h.apart m t ht).trans hm
    have hclosed : (s.within part).closed.contains t = s.closed.contains t := by
      simp [within, hpart]
    rw [visitAll, visitAll, ih hrest fun t' ht' => search t' (List.mem_cons_of_mem _ ht'),
      hclosed]
    congr 1
    split
    · simp [within, hm]
    · next hopen =>
      split
      · rfl
      · exact search t List.mem_cons_self (by simpa using hopen) s

/-- A search from a module of the part is one in the part, with any fuel that is enough. -/
theorem visit_within (h : Component g part own) (hm : part m = true) (hopen : m ∉ stack)
    (hfuel : Fueled g fuel stack) (hfuel' : Fueled own fuel' stack) :
    (visit g fuel stack m s).within part = visit own fuel' stack m (s.within part) := by
  induction fuel generalizing fuel' stack m s with
  | zero => exact absurd hfuel not_fueled_zero
  | succ fuel ih =>
    cases fuel' with
    | zero => exact absurd hfuel' not_fueled_zero
    | succ fuel' =>
      have hedges : (visitAll g fuel (m :: stack) m (g.targets m) s).within part =
          visitAll own fuel' (m :: stack) m (g.targets m) (s.within part) := by
        refine visitAll_within h hm (List.Subset.refl _) (fun t ht hnew s => ?_) s
        have hkey := Graph.mem_keys_of_mem_targets ht
        have hkey' : m ∈ own.map (·.1) := h.keys ▸ List.mem_filter.mpr ⟨hkey, hm⟩
        exact ih ((h.apart m t ht).trans hm) hnew (hfuel.push hopen hkey)
          (hfuel'.push hopen hkey')
      rw [visit, visit, h.targets m hm, ← hedges]
      simp [within, hm]

/-! ## Outside of the part -/

/-- A search from a module outside of the part meets nothing in it. -/
theorem visit_outside (h : ∀ m, ∀ t ∈ g.targets m, part t = part m) (hm : part m = false) :
    (visit g fuel stack m s).within part = s.within part := by
  induction fuel generalizing stack m s with
  | zero => rw [visit]
  | succ fuel ih =>
    have edges (targets : List ModuleId) (hsub : targets ⊆ g.targets m) (s : Search) :
        (visitAll g fuel (m :: stack) m targets s).within part = s.within part := by
      induction targets generalizing s with
      | nil => rw [visitAll]
      | cons t rest ihrest =>
        obtain ⟨ht, hrest⟩ := List.cons_subset.mp hsub
        rw [visitAll, ihrest hrest]
        split
        · simp [within, hm]
        split
        · rfl
        · exact ih ((h m t ht).trans hm)
    rw [visit, ← edges (g.targets m) (List.Subset.refl _) s]
    simp [within, hm]

/-! ## From every module in order -/

theorem Fueled.start (g : Graph) : Fueled g (g.length + 1) [] :=
  ⟨.nil, List.nil_subset _, by simp⟩

/-- The search goes on from the next module, unless it is done with it. -/
def goOn (g : Graph) (s : Search) (m : ModuleId) : Search :=
  if s.closed.contains m then s else visit g (g.length + 1) [] m s

theorem goOn_within (h : Component g part own) (hm : part m = true) :
    (goOn g s m).within part = goOn own (s.within part) m := by
  have hclosed : (s.within part).closed.contains m = s.closed.contains m := by
    simp [within, hm]
  rw [goOn, goOn, hclosed]
  split
  · rfl
  · exact visit_within h hm List.not_mem_nil (.start g) (.start own)

theorem goOn_outside (h : Component g part own) (hm : part m = false) :
    (goOn g s m).within part = s.within part := by
  rw [goOn]
  split
  · rfl
  · exact visit_outside h.apart hm

theorem foldl_goOn_within (h : Component g part own) (ms : List ModuleId) (s : Search) :
    (ms.foldl (goOn g) s).within part = (ms.filter part).foldl (goOn own) (s.within part) := by
  induction ms generalizing s with
  | nil => rfl
  | cons m rest ih =>
    rw [List.foldl_cons, ih]
    cases hm : part m with
    | false => rw [List.filter_cons_of_neg (by simp [hm]), goOn_outside h hm]
    | true => rw [List.filter_cons_of_pos hm, List.foldl_cons, goOn_within h hm]

end Search

/-- The edges that lead back in a part are those that lead back when the part stands alone. -/
theorem backEdges_component {g own : Graph} {part : ModuleId → Bool} (h : Component g part own) :
    (backEdges g).filter (part ·.1) = backEdges own := by
  have hall := Search.foldl_goOn_within h (g.map (·.1)) {}
  rw [← h.keys] at hall
  exact congrArg Search.found hall

/-- The imports of a part that no import leads into or out of make up a component. -/
theorem component_graphOf {sets : List (ModuleId × ImportSet)} {part : ModuleId → Bool}
    (hkeys : (sets.map (·.1)).Nodup)
    (h : ∀ m source, ImportsFrom sets m source → part source = part m) :
    Component (graphOf sets) part (graphOf (sets.filter (part ·.1))) where
  keys := by
    rw [keys_graphOf, keys_graphOf, List.filter_map]
    rfl
  targets m hm := by
    have hgraph : graphOf (sets.filter (part ·.1)) = (graphOf sets).filter (part ·.1) := by
      rw [graphOf, graphOf, List.filter_map]
      rfl
    rw [Graph.targets, hgraph, lookup_filter hm, Graph.targets]
  apart m t ht := h m t ((mem_targets_graphOf hkeys).mp ht)

end SchemaBindings.Imports
