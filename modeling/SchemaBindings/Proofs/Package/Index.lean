import SchemaBindings.Proofs.Package.Generate

/-!
The index of child modules: it holds the steps that lead to the modules of a package, and it is made
exactly if none of them has the name of something at the top of the module that it leaves.
-/

namespace SchemaBindings.Package

/-- A step from a parent to its child, among the steps behind those that were taken already. -/
inductive Step : List String → List String → ModuleId → String → Prop
  | first {reached rest : List String} {child : String} :
    Step reached (child :: rest) ⟨reached⟩ child
  | later {reached rest : List String} {next child : String} {parent : ModuleId}
      (h : Step (reached ++ [next]) rest parent child) : Step reached (next :: rest) parent child

/-- A step of those that lead to a module from the root of the tree of modules. -/
def StepTo (m parent : ModuleId) (child : String) : Prop :=
  Step [] m.segments parent child

theorem step_iff {reached steps : List String} {parent : ModuleId} {child : String} :
    Step reached steps parent child ↔
      ∃ front rest, steps = front ++ child :: rest ∧ parent.segments = reached ++ front := by
  constructor
  · intro h
    induction h with
    | first => exact ⟨[], _, rfl, by simp⟩
    | later _ ih =>
      obtain ⟨front, rest, rfl, hparent⟩ := ih
      exact ⟨_ :: front, rest, rfl, by simp [hparent]⟩
  · rintro ⟨front, rest, rfl, hparent⟩
    induction front generalizing reached with
    | nil =>
      obtain ⟨segments⟩ := parent
      obtain rfl : segments = reached := by simpa using hparent
      exact .first
    | cons next front ih => exact .later (ih (by simpa using hparent))

/-- Steps lead through the children of parents. -/
theorem stepTo_iff {m parent : ModuleId} {child : String} :
    StepTo m parent child ↔ parent.segments ++ [child] <+: m.segments := by
  rw [StepTo, step_iff]
  constructor
  · rintro ⟨front, rest, hm, hparent⟩
    exact ⟨rest, by simp [hm, hparent]⟩
  · rintro ⟨rest, hm⟩
    exact ⟨parent.segments, rest, by simp [← hm], by simp⟩

variable {symbols : SymbolTable} {index index' : Index} {e : Failure}

/-- Steps that were added to an index: no child is a name at the top of its parent. -/
structure StepsAdded (symbols : SymbolTable) (steps : ModuleId → String → Prop)
    (index index' : Index) : Prop where
  sorted : SortedGroups ModuleId.before index → SortedGroups ModuleId.before index'
  full : (∀ e ∈ index, e.2 ≠ []) → ∀ e ∈ index', e.2 ≠ []
  free : ∀ parent child, steps parent child → symbols.isLocal parent child = false
  inGroup : ∀ parent child, InGroup index' parent child ↔
    InGroup index parent child ∨ steps parent child

/-- A step whose child is a name at the top of its parent was refused. -/
def StepRefused (symbols : SymbolTable) (steps : ModuleId → String → Prop) (e : Failure) : Prop :=
  ∃ parent child, steps parent child ∧ symbols.isLocal parent child = true ∧
    e = .nameCollision parent.text child

theorem addSteps_ok {reached steps : List String}
    (h : addSteps symbols reached steps index = .ok index') :
    StepsAdded symbols (Step reached steps) index index' := by
  induction steps generalizing reached index with
  | nil =>
    cases h
    exact ⟨id, id, nofun, fun parent child => ⟨.inl, fun h => h.resolve_right nofun⟩⟩
  | cons child rest ih =>
    rw [addSteps] at h
    dsimp only at h
    split at h
    · cases h
    · next hfree =>
      obtain ⟨hsorted, hfull, hrest, hgroups⟩ := ih h
      refine ⟨fun hs => hsorted (hs.insert child), fun hne => hfull fun e he => ?_,
        fun parent c hstep => ?_, fun parent c => ?_⟩
      · rcases mem_of_mem_insertSorted (k := e.1) (v := e.2) he with hnew | hold
        · rw [(Prod.mk.inj hnew).2]
          exact List.ne_nil_of_mem (mem_insertName.mpr (.inl rfl))
        · exact hne e hold
      · cases hstep with
        | first => simpa using hfree
        | later hstep => exact hrest parent c hstep
      · rw [hgroups, inGroup_insertSorted]
        constructor
        · rintro ((⟨rfl, rfl⟩ | hold) | hstep)
          · exact .inr .first
          · exact .inl hold
          · exact .inr (.later hstep)
        · rintro (hold | _ | hstep)
          · exact .inl (.inr hold)
          · exact .inl (.inl ⟨rfl, rfl⟩)
          · exact .inr hstep

theorem addSteps_error {reached steps : List String}
    (h : addSteps symbols reached steps index = .error e) :
    StepRefused symbols (Step reached steps) e := by
  induction steps generalizing reached index with
  | nil => cases h
  | cons child rest ih =>
    rw [addSteps] at h
    dsimp only at h
    split at h
    · next hlocal =>
      cases h
      exact ⟨⟨reached⟩, child, .first, hlocal, rfl⟩
    · obtain ⟨parent, c, hstep, hlocal, he⟩ := ih h
      exact ⟨parent, c, .later hstep, hlocal, he⟩

/-- The steps that lead to modules. -/
def StepToAny (modules : List ModuleId) (parent : ModuleId) (child : String) : Prop :=
  ∃ m ∈ modules, StepTo m parent child

theorem indexOf_ok {modules : List ModuleId} (h : indexOf symbols modules = .ok index) :
    StepsAdded symbols (StepToAny modules) [] index := by
  have grow (modules : List ModuleId) (start : Index)
      (h : modules.foldlM (fun index m => addSteps symbols [] m.segments index) start =
        .ok index) : StepsAdded symbols (StepToAny modules) start index := by
    induction modules generalizing start with
    | nil =>
      cases h
      have hnone (parent : ModuleId) (child : String) : ¬ StepToAny [] parent child :=
        fun ⟨_, hm, _⟩ => List.not_mem_nil hm
      exact ⟨id, id, fun parent child hstep => absurd hstep (hnone parent child),
        fun parent child => ⟨.inl, fun h => h.resolve_right (hnone parent child)⟩⟩
    | cons m rest ih =>
      rw [List.foldlM_cons] at h
      obtain ⟨middle, hfirst, hrest⟩ := bind_ok.mp h
      have hone := addSteps_ok hfirst
      have hothers := ih middle hrest
      refine ⟨hothers.sorted ∘ hone.sorted, hothers.full ∘ hone.full, ?_, fun parent child => ?_⟩
      · rintro parent child ⟨n, hn, hstep⟩
        rcases List.mem_cons.mp hn with rfl | hn
        · exact hone.free parent child hstep
        · exact hothers.free parent child ⟨n, hn, hstep⟩
      · rw [hothers.inGroup, hone.inGroup, or_assoc]
        simp only [StepToAny, List.exists_mem_cons_iff]
        rfl
  exact grow modules [] h

theorem indexOf_error {modules : List ModuleId} (h : indexOf symbols modules = .error e) :
    StepRefused symbols (StepToAny modules) e := by
  have grow (modules : List ModuleId) (start : Index)
      (h : modules.foldlM (fun index m => addSteps symbols [] m.segments index) start =
        .error e) : StepRefused symbols (StepToAny modules) e := by
    induction modules generalizing start with
    | nil => cases h
    | cons m rest ih =>
      rw [List.foldlM_cons] at h
      cases hfirst : addSteps symbols [] m.segments start with
      | error e' =>
        rw [hfirst] at h
        cases h
        obtain ⟨parent, child, hstep, hlocal⟩ := addSteps_error hfirst
        exact ⟨parent, child, ⟨m, List.mem_cons_self, hstep⟩, hlocal⟩
      | ok middle =>
        rw [hfirst] at h
        obtain ⟨parent, child, ⟨n, hn, hstep⟩, hlocal⟩ := ih middle h
        exact ⟨parent, child, ⟨n, List.mem_cons_of_mem _ hn, hstep⟩, hlocal⟩
  exact grow modules [] h

end SchemaBindings.Package
