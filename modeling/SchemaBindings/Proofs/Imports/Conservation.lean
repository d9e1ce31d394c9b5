import SchemaBindings.Proofs.Imports.Resolution

/-!
Resolving imports loses nothing and adds nothing: every imported name is declared in one group or
deferred, as its edge is, and every edge that is deferred is listed once.
-/

namespace SchemaBindings

/-! ## Sources of imports -/

namespace ImportSet

/-- Modules are inserted like the keys of a table without values. -/
private theorem insertModule_eq (m : ModuleId) (ms : List ModuleId) :
    modules.insertModule m ms =
      (insertSorted ModuleId.before m () (ms.map (·, ()))).map (·.1) := by
  induction ms with
  | nil => rfl
  | cons head rest ih =>
    simp only [modules.insertModule, ih, List.map_cons, insertSorted]
    split
    · next he => simp [beq_iff_eq.mp he, Function.comp_def]
    split
    · simp [Function.comp_def]
    · rfl

/-- No module is listed twice among those that something is imported from. -/
theorem nodup_modules (s : ImportSet) : s.modules.Nodup := by
  have grow (entries : List (String × ModuleId)) (ms : List ModuleId)
      (h : ms.Pairwise fun a b => a.before b = true) :
      (entries.foldl (fun ms e => modules.insertModule e.2 ms) ms).Pairwise
        fun a b => a.before b = true := by
    induction entries generalizing ms with
    | nil => exact h
    | cons entry rest ih =>
      have hkeys : ((ms.map (·, ())).map (·.1)).Pairwise fun a b => a.before b = true := by
        simpa [Function.comp_def] using h
      rw [List.foldl_cons]
      refine ih (modules.insertModule entry.2 ms) ?_
      rw [insertModule_eq]
      exact pairwise_insertSorted hkeys
  refine (grow s.entries [] .nil).imp fun {a b} hab he => ?_
  exact irrefl_of (fun a b : ModuleId => a.before b = true) b (he ▸ hab)

end ImportSet

namespace Imports

/-! ## Every edge is found once -/

/-- The edges that a search from the module at the head of the stack adds: those from this module
to some of its targets, and those from modules that it was not at before and is done with now. -/
structure Search.Finds (stack : List ModuleId) (m : ModuleId) (direct : List ModuleId)
    (s s' : Search) (new : List Edge) : Prop where
  found : s'.found = new ++ s.found
  nodup : new.Nodup
  closed : s.closed ⊆ s'.closed
  sources : ∀ e ∈ new, (e.1 = m ∧ e.2 ∈ direct) ∨
    (e.1 ∉ stack ∧ e.1 ∉ s.closed ∧ e.1 ∈ s'.closed)

namespace Search.Finds

variable {g : Graph} {stack direct more : List ModuleId} {m t : ModuleId} {s s' s'' : Search}
  {new newer : List Edge}

theorem refl (s : Search) : Finds stack m direct s s [] :=
  ⟨rfl, List.nodup_nil, List.Subset.refl _, nofun⟩

/-- What is found later begins elsewhere or leads to other targets. -/
theorem trans (hm : m ∈ stack) (hdirect : direct.Disjoint more)
    (h : Finds stack m direct s s' new) (h' : Finds stack m more s' s'' newer) :
    Finds stack m (direct ++ more) s s'' (newer ++ new) where
  found := by rw [h'.found, h.found, List.append_assoc]
  nodup := by
    refine List.nodup_append'.mpr ⟨h'.nodup, h.nodup, fun e hnewer hnew => ?_⟩
    rcases h'.sources e hnewer with ⟨hsource, hlate⟩ | ⟨hout, hfresh, -⟩ <;>
      rcases h.sources e hnew with ⟨hsource', hearly⟩ | ⟨hout', -, hdone⟩
    · exact hdirect hearly hlate
    · exact hout' (hsource ▸ hm)
    · exact hout (hsource' ▸ hm)
    · exact hfresh hdone
  closed := List.Subset.trans h.closed h'.closed
  sources := by
    intro e he
    rcases List.mem_append.mp he with he | he
    · rcases h'.sources e he with ⟨hsource, hlate⟩ | ⟨hout, hfresh, hdone⟩
      · exact .inl ⟨hsource, List.mem_append_right _ hlate⟩
      · exact .inr ⟨hout, fun hc => hfresh (h.closed hc), hdone⟩
    · rcases h.sources e he with ⟨hsource, hearly⟩ | ⟨hout, hfresh, hdone⟩
      · exact .inl ⟨hsource, List.mem_append_left _ hearly⟩
      · exact .inr ⟨hout, hfresh, h'.closed hdone⟩

/-- The edges of a module, one after the other, given what a search from any target finds. -/
private theorem visitAll_finds (fuel : Nat) {targets : List ModuleId} (htargets : targets.Nodup)
    (search : ∀ t s, t ∉ m :: stack → t ∉ s.closed → ∃ new,
      Finds (m :: stack) m [] s (visit g fuel (m :: stack) t s) new) (s : Search) :
    ∃ new, Finds (m :: stack) m targets s (visitAll g fuel (m :: stack) m targets s) new := by
  induction targets generalizing s with
  | nil =>
    rw [visitAll]
    exact ⟨[], refl s⟩
  | cons t rest ih =>
    obtain ⟨hnew, hrest⟩ := List.nodup_cons.mp htargets
    have hdisjoint : [t].Disjoint rest := List.singleton_disjoint.mpr hnew
    have first : ∃ s₁ new, visitAll g fuel (m :: stack) m (t :: rest) s =
        visitAll g fuel (m :: stack) m rest s₁ ∧ Finds (m :: stack) m [t] s s₁ new := by
      by_cases hopen : t ∈ m :: stack
      · exact ⟨{ s with found := (m, t) :: s.found }, [(m, t)], by rw [visitAll]; simp_all, rfl,
          List.nodup_singleton _, List.Subset.refl _, by simp⟩
      · by_cases hclosed : t ∈ s.closed
        · exact ⟨s, [], by rw [visitAll]; simp_all, refl s⟩
        · obtain ⟨new, hfound, hnodup, hgrow, hsources⟩ := search t s hopen hclosed
          refine ⟨_, new, by rw [visitAll]; simp_all, hfound, hnodup, hgrow, fun e he => ?_⟩
          exact (hsources e he).imp_left fun h => absurd h.2 List.not_mem_nil
    obtain ⟨s₁, new, heq, hfirst⟩ := first
    obtain ⟨newer, hothers⟩ := ih hrest s₁
    exact ⟨_, heq ▸ hfirst.trans List.mem_cons_self hdisjoint hothers⟩

/-- All edges that a search from a new module finds begin at modules that it was not at before. -/
theorem visit_finds (hg : ∀ m, (g.targets m).Nodup) (fuel : Nat) {t : ModuleId} (s : Search)
    (hopen : t ∉ stack) (hclosed : t ∉ s.closed) :
    ∃ new, Finds stack m [] s (visit g fuel stack t s) new := by
  induction fuel generalizing stack m t s with
  | zero =>
    rw [visit]
    exact ⟨[], refl s⟩
  | succ fuel ih =>
    obtain ⟨new, h⟩ := visitAll_finds fuel (hg t) (fun t' s' => ih s') s
    rw [visit]
    refine ⟨new, h.found, h.nodup, List.Subset.trans h.closed (List.subset_cons_self _ _), ?_⟩
    intro e he
    rcases h.sources e he with ⟨rfl, -⟩ | ⟨hout, hfresh, hdone⟩
    · exact .inr ⟨hopen, hclosed, List.mem_cons_self⟩
    · exact .inr ⟨fun hs => hout (List.mem_cons_of_mem _ hs), hfresh,
        List.mem_cons_of_mem _ hdone⟩

end Search.Finds

theorem nodup_backEdges {g : Graph} (hg : ∀ m, (g.targets m).Nodup) : (backEdges g).Nodup := by
  have run (ms : List ModuleId) (s : Search) (hnodup : s.found.Nodup)
      (hsources : ∀ e ∈ s.found, e.1 ∈ s.closed) :
      (ms.foldl (fun s m =>
        if s.closed.contains m then s else visit g (g.length + 1) [] m s) s).found.Nodup := by
    induction ms generalizing s with
    | nil => exact hnodup
    | cons m rest ih =>
      rw [List.foldl_cons]
      split
      · exact ih s hnodup hsources
      · next hm =>
        obtain ⟨new, h⟩ := Search.Finds.visit_finds (m := m) hg (g.length + 1) s
          List.not_mem_nil (by simpa using hm)
        have hnew : ∀ e ∈ new, e.1 ∉ s.closed ∧ e.1 ∈ _ := fun e he =>
          ((h.sources e he).resolve_left fun hd => List.not_mem_nil hd.2).2
        refine ih _ ?_ fun e he => ?_
        · rw [h.found]
          exact List.nodup_append'.mpr ⟨h.nodup, hnodup, fun e he hs =>
            (hnew e he).1 (hsources e hs)⟩
        · rw [h.found] at he
          rcases List.mem_append.mp he with he | he
          · exact (hnew e he).2
          · exact h.closed (hsources e he)
  exact run _ {} List.nodup_nil nofun

instance isStrictTotalOrder_edgeBefore :
    IsStrictTotalOrder Edge fun a b => edgeBefore a b = true where
  trichotomous a b hab hba := by
    obtain ⟨m, t⟩ := a
    obtain ⟨m', t'⟩ := b
    simp only [edgeBefore, Bool.or_eq_true, Bool.and_eq_true, beq_iff_eq, not_or, not_and] at *
    have hm := (trichotomous_of (fun a b : ModuleId => a.before b = true) m m').resolve_left hab.1
    have ht := trichotomous_of (fun a b : ModuleId => a.before b = true) t t'
    grind
  irrefl a := by
    have hirrefl := irrefl_of (fun a b : ModuleId => a.before b = true)
    simp [edgeBefore, hirrefl]
  trans a b c hab hbc := by
    have htrans (a b c : ModuleId) : a.before b = true → b.before c = true → a.before c = true :=
      trans_of fun a b : ModuleId => a.before b = true
    simp only [edgeBefore, Bool.or_eq_true, Bool.and_eq_true, beq_iff_eq] at *
    grind

/-- Edges that differ from each other stand in ascending order once they are sorted. -/
theorem pairwise_sortedEdges {edges : List Edge} (h : edges.Nodup) :
    (sortedEdges edges).Pairwise fun a b => edgeBefore a b = true :=
  pairwise_sortedByKey _ id (by simpa using h)

/-! ## Every name is declared or deferred -/

/-- The names that a module imports, each with its source, as they are declared or deferred. -/
def ModuleImports.entries (imports : ModuleImports) : List (String × ModuleId) :=
  imports.eager.flatMap (fun group => group.2.map (·, group.1)) ++ imports.deferred

/-- The imports of a module, divided along the edges that are deferred: nothing is lost, doubled or
added, and a name is where its edge is and nowhere else. -/
structure Divides (demoted : List Edge) (m : ModuleId) (set : ImportSet)
    (imports : ModuleImports) : Prop where
  perm : imports.entries.Perm set.entries
  cases : ∀ name source, (name, source) ∈ set.entries →
    ((m, source) ∈ demoted ∧ imports.deferred.lookup name = some source ∧
      ∀ group ∈ imports.eager, name ∉ group.2) ∨
    ((m, source) ∉ demoted ∧ name ∉ imports.deferred.map (·.1) ∧
      (∃ names, imports.eager.lookup source = some names ∧ name ∈ names) ∧
      ∀ group ∈ imports.eager, name ∈ group.2 → group.1 = source)

section Split

variable {demoted : List Edge} {m source : ModuleId} {set : ImportSet} {name : String}

theorem mem_entries_split (hkeys : (set.entries.map (·.1)).Nodup) {e : String × ModuleId} :
    e ∈ (split demoted m set).entries ↔ e ∈ set.entries := by
  obtain ⟨name, source⟩ := e
  rw [ModuleImports.entries, List.mem_append, (deferred_split_perm hkeys).mem_iff,
    List.mem_filter, List.contains_iff_mem]
  constructor
  · rintro (h | h)
    · obtain ⟨group, hgroup, hmem⟩ := List.mem_flatMap.mp h
      obtain ⟨n, hn, he⟩ := List.mem_map.mp hmem
      cases he
      exact ((mem_eager_split hgroup).2 _ hn).1
    · exact h.1
  · intro h
    by_cases hd : (m, source) ∈ demoted
    · exact .inr ⟨h, hd⟩
    · obtain ⟨names, hl, hn⟩ := lookup_eager_split.mpr ⟨h, hd⟩
      exact .inl (List.mem_flatMap.mpr ⟨_, mem_of_lookup hl, List.mem_map.mpr ⟨name, hn, rfl⟩⟩)

theorem nodup_entries_split (hkeys : (set.entries.map (·.1)).Nodup) :
    (split demoted m set).entries.Nodup := by
  have hnames : (split demoted m set).entries.map (·.1) =
      (split demoted m set).eager.flatMap (·.2) ++ (split demoted m set).deferred.map (·.1) := by
    simp [ModuleImports.entries, List.map_flatMap, Function.comp_def]
  have hdeferred : ((split demoted m set).deferred.map (·.1)).Nodup := by
    rw [((deferred_split_perm hkeys).map _).nodup_iff]
    exact hkeys.sublist (List.filter_sublist.map _)
  refine List.Nodup.of_map (·.1) (hnames ▸ List.nodup_append'.mpr
    ⟨nodup_eager_split hkeys, hdeferred, fun name he hd => ?_⟩)
  obtain ⟨group, hgroup, hn⟩ := List.mem_flatMap.mp he
  obtain ⟨⟨_, source⟩, hmem, rfl⟩ := List.mem_map.mp hd
  obtain ⟨hentry, hkept⟩ := (mem_eager_split hgroup).2 _ hn
  obtain ⟨hentry', hleft⟩ := List.mem_filter.mp ((deferred_split_perm hkeys).mem_iff.mp hmem)
  obtain rfl : group.1 = source := eq_of_mem hkeys hentry hentry'
  exact hkept (List.contains_iff_mem.mp hleft)

/-- Splitting the imports of a module divides them. -/
theorem split_divides (hkeys : (set.entries.map (·.1)).Nodup) :
    Divides demoted m set (split demoted m set) where
  perm := (List.perm_ext_iff_of_nodup (nodup_entries_split hkeys) hkeys.of_map).mpr
    fun _ => mem_entries_split hkeys
  cases name source h := by
    have hgroup : ∀ group ∈ (split demoted m set).eager, name ∈ group.2 →
        group.1 = source ∧ (m, source) ∉ demoted := by
      intro group hg hn
      obtain ⟨hentry, hkept⟩ := (mem_eager_split hg).2 name hn
      obtain rfl : group.1 = source := eq_of_mem hkeys hentry h
      exact ⟨rfl, hkept⟩
    by_cases hd : (m, source) ∈ demoted
    · exact .inl ⟨hd, (lookup_deferred_split hkeys).mpr ⟨h, hd⟩,
        fun group hg hn => (hgroup group hg hn).2 hd⟩
    · refine .inr ⟨hd, fun hname => ?_, lookup_eager_split.mpr ⟨h, hd⟩,
        fun group hg hn => (hgroup group hg hn).1⟩
      obtain ⟨⟨_, source'⟩, hmem, rfl⟩ := List.mem_map.mp hname
      obtain ⟨hentry, hleft⟩ := List.mem_filter.mp ((deferred_split_perm hkeys).mem_iff.mp hmem)
      obtain rfl : source = source' := eq_of_mem hkeys h hentry
      exact hd (List.contains_iff_mem.mp hleft)

end Split

/-- No edge of the graph of imports is listed twice. -/
theorem nodup_targets_graphOf (sets : List (ModuleId × ImportSet)) (m : ModuleId) :
    ((graphOf sets).targets m).Nodup := by
  rw [Graph.targets]
  cases hl : (graphOf sets).lookup m with
  | none => exact List.nodup_nil
  | some targets =>
    obtain ⟨⟨n, set⟩, -, he⟩ := List.mem_map.mp (mem_of_lookup hl)
    obtain ⟨rfl, rfl⟩ := Prod.mk.inj he
    exact set.nodup_modules.filter _

/-- Whatever modules import from each other, resolving keeps exactly their imports: those of each
module are divided along the edges that are deferred, every edge that is deferred defers a name,
and the deferred edges are listed in ascending order. -/
theorem resolve_conserves (sets : List (ModuleId × ImportSet)) (hkeys : (sets.map (·.1)).Nodup)
    (hnames : ∀ e ∈ sets, (e.2.entries.map (·.1)).Nodup) :
    ∃ r, resolve sets = .ok r ∧ r.modules.map (·.1) = sets.map (·.1) ∧
      (∀ m set, (m, set) ∈ sets → ∃ imports, (m, imports) ∈ r.modules ∧
        Divides r.demoted m set imports) ∧
      (∀ m source, (m, source) ∈ r.demoted → ∃ imports, (m, imports) ∈ r.modules ∧
        ∃ name, imports.deferred.lookup name = some source) ∧
      r.demoted.Pairwise fun a b => edgeBefore a b = true := by
  have hr := resolve_eq_ok hkeys
  refine ⟨_, hr, by simp [Function.comp_def], fun m set hset => ?_, fun m source hd => ?_, ?_⟩
  · exact ⟨_, List.mem_map.mpr ⟨_, hset, rfl⟩, split_divides (hnames _ hset)⟩
  · obtain ⟨⟨⟨set, hset, name, hentry⟩, -⟩, -⟩ := reach_of_mem_demoted hkeys hr hd
    exact ⟨_, List.mem_map.mpr ⟨_, hset, rfl⟩, name,
      (lookup_deferred_split (hnames _ hset)).mpr ⟨hentry, hd⟩⟩
  · exact pairwise_sortedEdges (nodup_backEdges (nodup_targets_graphOf sets))

theorem resolve_conserves_circle :
    (circle.map (·.1)).Nodup ∧ (∀ e ∈ circle, (e.2.entries.map (·.1)).Nodup) ∧
      ∃ r, resolve circle = .ok r ∧ r.modules.map (·.1) = circle.map (·.1) ∧
        (∀ m set, (m, set) ∈ circle → ∃ imports, (m, imports) ∈ r.modules ∧
          Divides r.demoted m set imports) ∧
        (∀ m source, (m, source) ∈ r.demoted → ∃ imports, (m, imports) ∈ r.modules ∧
          ∃ name, imports.deferred.lookup name = some source) ∧
        r.demoted.Pairwise fun a b => edgeBefore a b = true :=
  ⟨by decide, by decide, resolve_conserves circle (by decide) (by decide)⟩

end Imports

end SchemaBindings
