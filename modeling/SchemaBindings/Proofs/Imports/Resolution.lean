import SchemaBindings.Proofs.Imports.Unordered

/-!
Resolved imports. Each import is either declared or deferred, by its source alone; the declared ones
form no cycle, and none is deferred that could have been declared as well.
-/

namespace SchemaBindings

instance ModuleId.isStrictTotalOrder_before :
    IsStrictTotalOrder ModuleId fun a b => a.before b = true where
  trichotomous a b hab hba := by
    simp only [before, decide_eq_true_eq] at hab hba
    have he := List.le_antisymm (List.not_lt.mp hba) (List.not_lt.mp hab)
    cases a
    exact congrArg _ he
  irrefl a := by simp [before]
  trans a b c hab hbc := by
    simp only [before, decide_eq_true_eq] at hab hbc ⊢
    exact List.lt_trans hab hbc

namespace Imports

open Relation

/-! ## Declared and deferred names -/

section Split

variable {demoted : List Edge} {m source : ModuleId} {set : ImportSet} {name : String}

private theorem lookup_declare (groups : List (ModuleId × List String)) (n : String)
    (s : ModuleId) :
    (∃ names, (declare n s groups).lookup source = some names ∧ name ∈ names) ↔
      (name, source) = (n, s) ∨ ∃ names, groups.lookup source = some names ∧ name ∈ names := by
  rw [declare, lookup_insertSorted]
  by_cases hs : source = s
  · subst hs
    cases hl : groups.lookup source <;> simp [mem_insertName, eq_comm]
  · simp [hs]

/-- Puts one import among those that are deferred or among those that are declared. -/
private def place (demoted : List Edge) (m : ModuleId) (imports : ModuleImports)
    (entry : String × ModuleId) : ModuleImports :=
  if demoted.contains (m, entry.2) then
    { imports with deferred := insertByName entry.1 entry.2 imports.deferred }
  else { imports with eager := declare entry.1 entry.2 imports.eager }

private theorem split_eq : split demoted m set = set.entries.foldl (place demoted m) {} :=
  rfl

/-- A name is in the group of a module if it is imported from there and the import is not
deferred. -/
theorem lookup_eager_split :
    (∃ names, (split demoted m set).eager.lookup source = some names ∧ name ∈ names) ↔
      (name, source) ∈ set.entries ∧ (m, source) ∉ demoted := by
  have grow (entries : List (String × ModuleId)) (imports : ModuleImports) :
      (∃ names, (entries.foldl (place demoted m) imports).eager.lookup source = some names ∧
        name ∈ names) ↔ ((name, source) ∈ entries ∧ (m, source) ∉ demoted) ∨
          ∃ names, imports.eager.lookup source = some names ∧ name ∈ names := by
    induction entries generalizing imports with
    | nil => simp
    | cons entry rest ih =>
      obtain ⟨n, s⟩ := entry
      rw [List.foldl_cons]
      refine (ih _).trans ?_
      by_cases hd : (m, s) ∈ demoted
      · simp only [place, List.contains_iff_mem.mpr hd, if_true]
        grind
      · simp only [place, List.contains_iff_mem, hd, if_false, lookup_declare]
        grind
  simpa [split_eq] using grow set.entries {}

/-- Whatever stands in a group is imported from there and not deferred, and no group is empty. -/
theorem mem_eager_split {names : List String} (h : (source, names) ∈ (split demoted m set).eager) :
    names ≠ [] ∧ ∀ name ∈ names, (name, source) ∈ set.entries ∧ (m, source) ∉ demoted := by
  have keep (entries : List (String × ModuleId)) (hsub : entries ⊆ set.entries)
      (imports : ModuleImports)
      (hi : ∀ source names, (source, names) ∈ imports.eager → names ≠ [] ∧
        ∀ name ∈ names, (name, source) ∈ set.entries ∧ (m, source) ∉ demoted) :
      ∀ source names, (source, names) ∈ (entries.foldl (place demoted m) imports).eager →
        names ≠ [] ∧ ∀ name ∈ names, (name, source) ∈ set.entries ∧ (m, source) ∉ demoted := by
    induction entries generalizing imports with
    | nil => exact hi
    | cons entry rest ih =>
      obtain ⟨n, s⟩ := entry
      obtain ⟨hmem, hrest⟩ := List.cons_subset.mp hsub
      refine ih hrest _ ?_
      by_cases hd : (m, s) ∈ demoted
      · simpa only [place, List.contains_iff_mem.mpr hd, if_true] using hi
      · simp only [place, List.contains_iff_mem, hd, if_false]
        intro source names hg
        rcases mem_of_mem_insertSorted hg with he | hg
        · obtain ⟨rfl, rfl⟩ := Prod.mk.inj he
          refine ⟨List.ne_nil_of_mem (mem_insertName.mpr (.inl rfl)), ?_⟩
          intro name hn
          rcases mem_insertName.mp hn with rfl | hn
          · exact ⟨hmem, hd⟩
          · cases hl : imports.eager.lookup source with
            | none => simp [hl] at hn
            | some old => exact (hi source old (mem_of_lookup hl)).2 name (by simpa [hl] using hn)
        · exact hi source names hg
  exact keep set.entries (List.Subset.refl _) {} (by simp) source names h

theorem mem_keys_eager_split :
    source ∈ (split demoted m set).eager.map (·.1) ↔
      (∃ name, (name, source) ∈ set.entries) ∧ (m, source) ∉ demoted := by
  constructor
  · intro h
    obtain ⟨⟨s, names⟩, hg, rfl⟩ := List.mem_map.mp h
    obtain ⟨hne, hall⟩ := mem_eager_split hg
    obtain ⟨name, hn⟩ := List.exists_mem_of_ne_nil names hne
    exact ⟨⟨name, (hall name hn).1⟩, (hall name hn).2⟩
  · rintro ⟨⟨name, hmem⟩, hd⟩
    obtain ⟨names, hl, -⟩ := lookup_eager_split.mpr ⟨hmem, hd⟩
    exact List.mem_map.mpr ⟨_, mem_of_lookup hl, rfl⟩

/-- No name is declared twice. -/
theorem nodup_eager_split (hkeys : (set.entries.map (·.1)).Nodup) :
    ((split demoted m set).eager.flatMap (·.2)).Nodup := by
  have grow (entries : List (String × ModuleId)) (imports : ModuleImports)
      (hi : SortedGroups ModuleId.before imports.eager) :
      SortedGroups ModuleId.before (entries.foldl (place demoted m) imports).eager := by
    induction entries generalizing imports with
    | nil => exact hi
    | cons entry rest ih =>
      refine ih _ ?_
      unfold place
      split
      · exact hi
      · exact hi.insert entry.1
  have hsorted : SortedGroups ModuleId.before (split demoted m set).eager :=
    grow set.entries {} ⟨.nil, by simp⟩
  refine hsorted.nodup fun a ha b hb name hna hnb => ?_
  exact eq_of_mem hkeys ((mem_eager_split ha).2 name hna).1 ((mem_eager_split hb).2 name hnb).1

private theorem deferred_split :
    (split demoted m set).deferred =
      insertEach [] (set.entries.filter fun e => demoted.contains (m, e.2)) := by
  have grow (entries : List (String × ModuleId)) (imports : ModuleImports) :
      (entries.foldl (place demoted m) imports).deferred =
        insertEach imports.deferred (entries.filter fun e => demoted.contains (m, e.2)) := by
    induction entries generalizing imports with
    | nil => rfl
    | cons entry rest ih =>
      obtain ⟨n, s⟩ := entry
      rw [List.foldl_cons, ih]
      by_cases hd : demoted.contains (m, s) = true
      · simp only [place, List.filter_cons, hd, if_true]
        rfl
      · simp only [place, List.filter_cons, hd, Bool.false_eq_true, if_false]
  rw [split_eq, grow]

/-- Deferred is what is imported along deferred edges. -/
theorem deferred_split_perm (hkeys : (set.entries.map (·.1)).Nodup) :
    (split demoted m set).deferred.Perm
      (set.entries.filter fun e => demoted.contains (m, e.2)) := by
  rw [deferred_split]
  exact insertEach_nil_perm (hkeys.sublist (List.filter_sublist.map _))

/-- The deferred names are those that are imported along deferred edges. -/
theorem lookup_deferred_split (hkeys : (set.entries.map (·.1)).Nodup) :
    (split demoted m set).deferred.lookup name = some source ↔
      (name, source) ∈ set.entries ∧ (m, source) ∈ demoted := by
  have hnodup : ((set.entries.filter fun e => demoted.contains (m, e.2)).map (·.1)).Nodup :=
    hkeys.sublist (List.filter_sublist.map _)
  rw [deferred_split, lookup_insertEach_nil hnodup, List.mem_filter, List.contains_iff_mem]

/-- Only what is imported is deferred. -/
theorem mem_deferred_split (h : (name, source) ∈ (split demoted m set).deferred) :
    (name, source) ∈ set.entries := by
  rw [deferred_split] at h
  exact List.mem_of_mem_filter ((mem_of_mem_insertEach h).resolve_left List.not_mem_nil)

/-- How imports are split depends on the deferred edges of their own module only. -/
theorem split_congr {demoted' : List Edge}
    (h : ∀ source, (m, source) ∈ demoted ↔ (m, source) ∈ demoted') :
    split demoted m set = split demoted' m set := by
  have hsame (source : ModuleId) :
      demoted.contains (m, source) = demoted'.contains (m, source) := by
    rw [Bool.eq_iff_iff, List.contains_iff_mem, List.contains_iff_mem, h]
  simp only [split, hsame]

end Split

/-! ## The graph of imports -/

/-- A module imports something from another one. -/
def ImportsFrom (sets : List (ModuleId × ImportSet)) (m source : ModuleId) : Prop :=
  (∃ set, (m, set) ∈ sets ∧ ∃ name, (name, source) ∈ set.entries) ∧ m ≠ source

/-- At the top of a module something is imported from another one. -/
def Resolution.Declares (r : Resolution) (m source : ModuleId) : Prop :=
  ∃ imports, (m, imports) ∈ r.modules ∧ source ∈ imports.eager.map (·.1) ∧ source ≠ m

section Resolve

variable {sets : List (ModuleId × ImportSet)} {m source : ModuleId}

theorem keys_graphOf : (graphOf sets).map (·.1) = sets.map (·.1) := by
  simp [graphOf, Function.comp_def]

theorem mem_targets_graphOf (hkeys : (sets.map (·.1)).Nodup) :
    source ∈ (graphOf sets).targets m ↔ ImportsFrom sets m source := by
  have hgraph : ((graphOf sets).map (·.1)).Nodup := keys_graphOf ▸ hkeys
  constructor
  · intro h
    rw [Graph.targets] at h
    cases hl : (graphOf sets).lookup m with
    | none => simp [hl] at h
    | some targets =>
      obtain ⟨⟨n, set⟩, hset, he⟩ := List.mem_map.mp (mem_of_lookup hl)
      obtain ⟨rfl, rfl⟩ := Prod.mk.inj he
      obtain ⟨hmem, hne⟩ : source ∈ set.modules ∧ ¬ source = n := by simpa [hl] using h
      exact ⟨⟨set, hset, ImportSet.mem_modules.mp hmem⟩, Ne.symm hne⟩
  · rintro ⟨⟨set, hset, hname⟩, hne⟩
    have hl : (graphOf sets).lookup m = some (set.modules.filter (· != m)) :=
      lookup_of_mem hgraph (List.mem_map.mpr ⟨_, hset, rfl⟩)
    rw [Graph.targets, hl]
    exact List.mem_filter.mpr ⟨ImportSet.mem_modules.mpr hname, bne_iff_ne.mpr hne.symm⟩

theorem mem_sortedEdges {edges : List Edge} {e : Edge} : e ∈ sortedEdges edges ↔ e ∈ edges :=
  List.mem_mergeSort

theorem kept_sortedEdges {g : Graph} {edges : List Edge} :
    g.Kept (sortedEdges edges) = g.Kept edges := by
  funext a b
  simp [Graph.Kept, mem_sortedEdges]

/-- Resolving imports always succeeds; it defers the edges that lead back. -/
theorem resolve_eq_ok (hkeys : (sets.map (·.1)).Nodup) :
    let demoted := sortedEdges (backEdges (graphOf sets))
    resolve sets = .ok ⟨sets.map fun (m, set) => (m, split demoted m set), demoted⟩ := by
  have hnil : unordered (graphOf sets) (sortedEdges (backEdges (graphOf sets))) = [] := by
    refine (unordered_eq_nil_iff (keys_graphOf ▸ hkeys)).mpr ?_
    rw [kept_sortedEdges]
    exact acyclic_backEdges _
  simp only [resolve, hnil]

/-- The imports of a module are split along the edges that are deferred. -/
theorem lookup_resolve (hkeys : (sets.map (·.1)).Nodup) {r : Resolution}
    (hr : resolve sets = .ok r) {set : ImportSet} (hset : (m, set) ∈ sets) :
    r.modules.lookup m = some (split r.demoted m set) := by
  rw [resolve_eq_ok hkeys] at hr
  cases hr
  refine lookup_of_mem ?_ (List.mem_map.mpr ⟨_, hset, rfl⟩)
  simpa [Function.comp_def] using hkeys

/-- Declared are the edges of the graph that are not deferred. -/
theorem declares_eq_kept (hkeys : (sets.map (·.1)).Nodup) {r : Resolution}
    (hr : resolve sets = .ok r) : r.Declares = (graphOf sets).Kept (backEdges (graphOf sets)) := by
  rw [resolve_eq_ok hkeys] at hr
  cases hr
  funext m source
  apply propext
  rw [Graph.Kept, mem_targets_graphOf hkeys]
  constructor
  · rintro ⟨imports, hm, hs, hne⟩
    obtain ⟨⟨n, set⟩, hset, he⟩ := List.mem_map.mp hm
    obtain ⟨rfl, rfl⟩ := Prod.mk.inj he
    obtain ⟨hname, hd⟩ := mem_keys_eager_split.mp hs
    exact ⟨⟨⟨set, hset, hname⟩, hne.symm⟩, fun hf => hd (mem_sortedEdges.mpr hf)⟩
  · rintro ⟨⟨⟨set, hset, hname⟩, hne⟩, hd⟩
    exact ⟨_, List.mem_map.mpr ⟨_, hset, rfl⟩,
      mem_keys_eager_split.mpr ⟨hname, fun hf => hd (mem_sortedEdges.mp hf)⟩, hne.symm⟩

theorem mem_demoted (hkeys : (sets.map (·.1)).Nodup) {r : Resolution}
    (hr : resolve sets = .ok r) {e : Edge} : e ∈ r.demoted ↔ e ∈ backEdges (graphOf sets) := by
  rw [resolve_eq_ok hkeys] at hr
  cases hr
  exact mem_sortedEdges

/-- Deferred imports are imports, and the declared ones lead back from where they come from. -/
theorem reach_of_mem_demoted (hkeys : (sets.map (·.1)).Nodup) {r : Resolution}
    (hr : resolve sets = .ok r) {a b : ModuleId} (h : (a, b) ∈ r.demoted) :
    ImportsFrom sets a b ∧ ReflTransGen r.Declares b a := by
  obtain ⟨ht, hback⟩ := reach_of_mem_backEdges ((mem_demoted hkeys hr).mp h)
  exact ⟨(mem_targets_graphOf hkeys).mp ht, declares_eq_kept hkeys hr ▸ hback⟩

/-- No import gets lost: it is declared unless it is deferred. -/
theorem declares_iff (hkeys : (sets.map (·.1)).Nodup) {r : Resolution}
    (hr : resolve sets = .ok r) :
    r.Declares m source ↔ ImportsFrom sets m source ∧ (m, source) ∉ r.demoted := by
  rw [declares_eq_kept hkeys hr, mem_demoted hkeys hr]
  exact and_congr_left' (mem_targets_graphOf hkeys)

theorem importsFrom_of_declares (hkeys : (sets.map (·.1)).Nodup) {r : Resolution}
    (hr : resolve sets = .ok r) (h : r.Declares m source) : ImportsFrom sets m source :=
  ((declares_iff hkeys hr).mp h).1

end Resolve

/-- Three modules that import in a circle, one of which also imports from itself and from a module
that has no imports of its own. -/
def circle : List (ModuleId × ImportSet) :=
  [(⟨["a"]⟩, ⟨[("B", ⟨["b"]⟩), ("Own", ⟨["a"]⟩)]⟩),
   (⟨["b"]⟩, ⟨[("A", ⟨["a"]⟩), ("C", ⟨["c"]⟩), ("Leaf", ⟨["leaf"]⟩)]⟩),
   (⟨["c"]⟩, ⟨[("A", ⟨["a"]⟩)]⟩)]

/-! ## Main results -/

/-- Whatever modules import from each other, their imports can be resolved. Those that are not
deferred are declared at the top of modules, where they form no cycle; no two modules declare
imports from each other. -/
theorem resolve_acyclic (sets : List (ModuleId × ImportSet)) (hkeys : (sets.map (·.1)).Nodup) :
    ∃ r, resolve sets = .ok r ∧
      (∀ a b, r.Declares a b ↔ ImportsFrom sets a b ∧ (a, b) ∉ r.demoted) ∧
      Acyclic r.Declares ∧ ∀ a b, ¬ (r.Declares a b ∧ r.Declares b a) := by
  obtain ⟨r, hr⟩ : ∃ r, resolve sets = .ok r := ⟨_, resolve_eq_ok hkeys⟩
  have hacyclic : Acyclic r.Declares := by
    rw [declares_eq_kept hkeys hr]
    exact acyclic_backEdges _
  refine ⟨r, hr, fun _ _ => declares_iff hkeys hr, hacyclic, ?_⟩
  rintro a b ⟨hab, hba⟩
  exact hacyclic a (.tail (.single hab) hba)

theorem resolve_acyclic_circle :
    (circle.map (·.1)).Nodup ∧ ∃ r, resolve circle = .ok r ∧
      (∀ a b, r.Declares a b ↔ ImportsFrom circle a b ∧ (a, b) ∉ r.demoted) ∧
      Acyclic r.Declares ∧ ∀ a b, ¬ (r.Declares a b ∧ r.Declares b a) :=
  ⟨by decide, resolve_acyclic circle (by decide)⟩

/-- Every deferred import would close a cycle with the declared ones if it was declared too. So
only imports on cycles are deferred, and without cycles none are. -/
theorem demoted_irredundant (sets : List (ModuleId × ImportSet))
    (hkeys : (sets.map (·.1)).Nodup) :
    ∃ r, resolve sets = .ok r ∧
      (∀ a b, (a, b) ∈ r.demoted →
        ImportsFrom sets a b ∧ ReflTransGen r.Declares b a ∧
          TransGen (fun m source => r.Declares m source ∨ (m, source) = (a, b)) a a) ∧
      (∀ a b, ImportsFrom sets a b → ¬ ReflTransGen (ImportsFrom sets) b a → (a, b) ∉ r.demoted) ∧
      (Acyclic (ImportsFrom sets) → r.demoted = []) := by
  obtain ⟨r, hr⟩ : ∃ r, resolve sets = .ok r := ⟨_, resolve_eq_ok hkeys⟩
  refine ⟨r, hr, ?_, ?_, ?_⟩
  · intro a b hd
    obtain ⟨hi, hback⟩ := reach_of_mem_demoted hkeys hr hd
    exact ⟨hi, hback, .head' (.inr rfl) (ReflTransGen.mono (fun _ _ h => .inl h) _ _ hback)⟩
  · intro a b _ hno hd
    obtain ⟨-, hback⟩ := reach_of_mem_demoted hkeys hr hd
    exact hno (ReflTransGen.mono (fun _ _ h => importsFrom_of_declares hkeys hr h) _ _ hback)
  · intro hacyclic
    rw [List.eq_nil_iff_forall_not_mem]
    rintro ⟨a, b⟩ hd
    obtain ⟨hi, hback⟩ := reach_of_mem_demoted hkeys hr hd
    exact hacyclic a (.head' hi
      (ReflTransGen.mono (fun _ _ h => importsFrom_of_declares hkeys hr h) _ _ hback))

theorem demoted_irredundant_circle :
    (circle.map (·.1)).Nodup ∧ ∃ r, resolve circle = .ok r ∧
      (∀ a b, (a, b) ∈ r.demoted →
        ImportsFrom circle a b ∧ ReflTransGen r.Declares b a ∧
          TransGen (fun m source => r.Declares m source ∨ (m, source) = (a, b)) a a) ∧
      (∀ a b, ImportsFrom circle a b → ¬ ReflTransGen (ImportsFrom circle) b a →
        (a, b) ∉ r.demoted) ∧
      (Acyclic (ImportsFrom circle) → r.demoted = []) :=
  ⟨by decide, demoted_irredundant circle (by decide)⟩

end Imports

end SchemaBindings
