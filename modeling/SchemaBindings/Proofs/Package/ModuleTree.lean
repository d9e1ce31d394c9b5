import SchemaBindings.Proofs.Package.Paths

/-!
The modules of a package with an index as one tree. A declaration of a child module leads to one of
two files, as the compiler of the generated code looks for them, and along the declarations every
module is reached from the root under its own name.
-/

namespace SchemaBindings.Package

open Code

/-- A module is loaded under the names that lead to it from the root: a declared child is the file
with its name or the index of the directory with its name. -/
inductive Loads (p : Package) : List String → GeneratedModule → Prop
  | root {m : GeneratedModule} (hm : m ∈ p.modules) (hpath : m.path = ["mod.rs"]) : Loads p [] m
  | child {path : List String} {parent m : GeneratedModule} {name : String}
      (hparent : Loads p path parent) (hdeclared : name ∈ childNames parent.file.items)
      (hm : m ∈ p.modules)
      (hpath : m.path = path ++ [name ++ ".rs"] ∨ m.path = path ++ [name, "mod.rs"]) :
      Loads p (path ++ [name]) m

/-- The package is one tree of modules, with a module in it for each of the schema files. -/
structure IsModuleTree (files : List SchemaFile) (p : Package) : Prop where
  /-- Every schema file has its module. -/
  complete : ∀ f ∈ files, ∃ m ∈ p.modules, m.source = some f.path ∧ m.module = f.module
  /-- Every module is loaded, under its own name only. -/
  reached : ∀ m ∈ p.modules, ∀ path, Loads p path m ↔ m.module = ⟨path⟩
  /-- Under a name no more than one module is loaded. -/
  single : ∀ path m m', Loads p path m → Loads p path m' → m = m'
  /-- No child is declared twice. -/
  once : ∀ m ∈ p.modules, (childNames m.file.items).Nodup
  /-- A declared child has exactly one of the files that it can have. -/
  hosted : ∀ m ∈ p.modules, ∀ child ∈ childNames m.file.items,
    Xor (∃ c ∈ p.modules, c.path = m.module.segments ++ [child ++ ".rs"])
      (∃ c ∈ p.modules, c.path = m.module.segments ++ [child, "mod.rs"])
  /-- Every module but the root is declared by its parent. -/
  declared : ∀ m ∈ p.modules, m.module ≠ ⟨[]⟩ → ∃ parent ∈ p.modules,
    ∃ child ∈ childNames parent.file.items, m.module = ⟨parent.module.segments ++ [child]⟩

variable {g : Generator} {files : List SchemaFile} {s : Stages} {m : GeneratedModule}
  {parent : ModuleId} {child : String}

/-! ## Steps to modules -/

theorem StepToAny.ne_mod (h : StepToAny (files.map (·.module)) parent child) : child ≠ "mod" := by
  obtain ⟨m, hm, hstep⟩ := h
  obtain ⟨f, -, rfl⟩ := List.mem_map.mp hm
  exact f.segment_ne_mod ((stepTo_iff.mp hstep).subset (by simp))

/-- The step that leads to a module on the way to another one. -/
theorem StepToAny.before {modules : List ModuleId} {front : List String} {last : String}
    (h : StepToAny modules ⟨front ++ [last]⟩ child) : StepToAny modules ⟨front⟩ last := by
  obtain ⟨m, hm, hstep⟩ := h
  exact ⟨m, hm, stepTo_iff.mpr ((List.prefix_append _ _).trans (stepTo_iff.mp hstep))⟩

/-- A step ends at a module or is followed by another step. -/
theorem StepToAny.ends_or_goesOn {modules : List ModuleId} (h : StepToAny modules parent child) :
    ⟨parent.segments ++ [child]⟩ ∈ modules ∨
      ∃ next, StepToAny modules ⟨parent.segments ++ [child]⟩ next := by
  obtain ⟨m, hm, hstep⟩ := h
  obtain ⟨rest, hrest⟩ := stepTo_iff.mp hstep
  cases rest with
  | nil =>
    rw [List.append_nil] at hrest
    exact .inl (hrest ▸ hm)
  | cons next rest =>
    exact .inr ⟨next, m, hm, stepTo_iff.mpr ⟨rest, by simp [← hrest]⟩⟩

namespace Stages.Succeed

/-- The children in the index are the steps to the modules of the files. -/
theorem inGroup_index (h : s.Succeed g files) (hindex : g.settings.moduleIndex = true) :
    InGroup s.index parent child ↔ StepToAny (files.map (·.module)) parent child := by
  have hi := h.index
  rw [if_pos hindex, modules_of_drafts h.drafts] at hi
  rw [(indexOf_ok hi).inGroup]
  exact or_iff_right List.not_mem_nil

theorem mem_keys_index (h : s.Succeed g files) (hindex : g.settings.moduleIndex = true) :
    parent ∈ s.index.map (·.1) ↔ ∃ child, StepToAny (files.map (·.module)) parent child := by
  have hi := h.index
  rw [if_pos hindex] at hi
  simp only [← h.inGroup_index hindex]
  constructor
  · intro hkey
    obtain ⟨⟨_, children⟩, he, rfl⟩ := List.mem_map.mp hkey
    have hfull := (indexOf_ok hi).full (List.forall_mem_nil _)
    obtain ⟨child, hc⟩ := List.exists_mem_of_ne_nil _ (hfull _ he)
    exact ⟨child, inGroup_of_mem h.index_spec.1.nodup_keys he hc⟩
  · rintro ⟨child, hc⟩
    obtain ⟨children, he, -⟩ := hc.exists_mem
    exact List.mem_map_of_mem he

/-- Every module of a package declares its children in the index. -/
theorem childNames_items (h : s.Succeed g files) (hm : m ∈ s.package.modules) :
    childNames m.file.items = (s.index.lookup m.module).getD [] := by
  rcases h.assembly_or_index hm with ⟨f, -, ⟨a⟩⟩ | hm
  · rw [a.childNames_items, a.module]
  · obtain ⟨e, hbare, he⟩ := exists_mem_left h.indexFiles hm
    obtain ⟨hmodule, -, -, hitems⟩ := indexFile_ok he
    obtain ⟨idents, htexts, hall⟩ := childItems_ok hitems
    rw [hall, (introducedNames_moduleFiles idents).2.2, htexts, hmodule,
      lookup_of_mem h.index_spec.1.nodup_keys (List.mem_filter.mp hbare).1, Option.getD_some]

theorem mem_childNames (h : s.Succeed g files) (hindex : g.settings.moduleIndex = true)
    (hm : m ∈ s.package.modules) :
    child ∈ childNames m.file.items ↔ StepToAny (files.map (·.module)) m.module child := by
  rw [h.childNames_items hm]
  exact h.inGroup_index hindex

/-- The package has a module for every file and for every parent in the index. -/
theorem exists_module (h : s.Succeed g files) : (∃ m ∈ s.package.modules, m.module = parent) ↔
    parent ∈ files.map (·.module) ∨ parent ∈ s.index.map (·.1) := by
  rw [← List.mem_map, (s.package_modules_perm.map _).mem_iff, List.map_append, List.mem_append,
    h.modules_finished, h.modules_indexFiles, h.mem_bare]
  tauto

/-- Steps lead to the modules of the package. -/
theorem exists_step (h : s.Succeed g files) (hindex : g.settings.moduleIndex = true) :
    (∃ m ∈ s.package.modules, m.module = ⟨parent.segments ++ [child]⟩) ↔
      StepToAny (files.map (·.module)) parent child := by
  rw [h.exists_module, h.mem_keys_index hindex]
  constructor
  · rintro (hfile | ⟨next, hstep⟩)
    · exact ⟨_, hfile, stepTo_iff.mpr (List.prefix_refl _)⟩
    · exact hstep.before
  · exact StepToAny.ends_or_goesOn

/-- A step is taken from a module of the package. -/
theorem exists_parent (h : s.Succeed g files) (hindex : g.settings.moduleIndex = true)
    (hstep : StepToAny (files.map (·.module)) parent child) :
    ∃ m ∈ s.package.modules, m.module = parent :=
  h.exists_module.mpr (.inr ((h.mem_keys_index hindex).mpr ⟨child, hstep⟩))

/-! ## Loading -/

/-- The two files that a child can have are those of the module with its name. -/
theorem path_iff (h : s.Succeed g files) (hm : m ∈ s.package.modules) {path : List String}
    {name : String} (hname : name ≠ "mod") :
    (m.path = path ++ [name ++ ".rs"] ∨ m.path = path ++ [name, "mod.rs"]) ↔
      m.module = ⟨path ++ [name]⟩ := by
  have hbehind : path ++ [name, "mod.rs"] = (path ++ [name]) ++ ["mod.rs"] := by simp
  rw [hbehind]
  rcases h.path_cases hm with ⟨f, -, hmodule, hpath⟩ | ⟨-, hpath⟩
  · rw [hmodule, hpath, or_iff_left (f.outputPath_ne _), ← ModuleId.outputPath_concat,
      ModuleId.outputPath_injective.eq_iff]
  · have hnot : m.path ≠ path ++ [name ++ ".rs"] := by
      intro he
      have hlast := List.singleton_inj.mp (List.append_inj' (hpath.symm.trans he) rfl).2
      exact hname ((String.append_left_inj ".rs").mp hlast.symm)
    rw [or_iff_right hnot, hpath, List.append_left_inj]
    exact ⟨congrArg ModuleId.mk, congrArg ModuleId.segments⟩

theorem root_iff (h : s.Succeed g files) (hne : ∀ f ∈ files, f.module.segments ≠ [])
    (hm : m ∈ s.package.modules) : m.path = ["mod.rs"] ↔ m.module = ⟨[]⟩ := by
  rcases h.path_cases hm with ⟨f, hf, hmodule, hpath⟩ | ⟨-, hpath⟩
  · rw [hmodule, hpath]
    refine iff_of_false (f.outputPath_ne []) fun he => hne f hf (congrArg ModuleId.segments he)
  · rw [hpath]
    exact ⟨fun he => congrArg ModuleId.mk (List.append_left_inj ["mod.rs"] |>.mp he),
      fun he => by rw [he, List.nil_append]⟩

theorem loads_iff (h : s.Succeed g files) (hindex : g.settings.moduleIndex = true)
    (hne : ∀ f ∈ files, f.module.segments ≠ []) {path : List String} :
    Loads s.package path m ↔ m ∈ s.package.modules ∧ m.module = ⟨path⟩ := by
  constructor
  · intro hload
    induction hload with
    | root hm hpath => exact ⟨hm, (h.root_iff hne hm).mp hpath⟩
    | child hparent hdeclared hm hpath ih =>
      have hstep := (h.mem_childNames hindex ih.1).mp hdeclared
      exact ⟨hm, (h.path_iff hm hstep.ne_mod).mp hpath⟩
  · -- along the steps that lead to the module
    induction path using List.reverseRecOn generalizing m with
    | nil => exact fun ⟨hm, hmodule⟩ => .root hm ((h.root_iff hne hm).mpr hmodule)
    | append_singleton path name ih =>
      rintro ⟨hm, hmodule⟩
      have hstep : StepToAny (files.map (·.module)) ⟨path⟩ name :=
        (h.exists_step hindex).mp ⟨m, hm, hmodule⟩
      obtain ⟨parent, hparent, hp⟩ := h.exists_parent hindex hstep
      refine .child (ih ⟨hparent, hp⟩) ?_ hm ((h.path_iff hm hstep.ne_mod).mpr hmodule)
      exact (h.mem_childNames hindex hparent).mpr (hp ▸ hstep)

/-- A child has a file, and no second one. -/
theorem hosted (h : s.Succeed g files) (hindex : g.settings.moduleIndex = true)
    (hstep : StepToAny (files.map (·.module)) parent child) :
    Xor (∃ c ∈ s.package.modules, c.path = parent.segments ++ [child ++ ".rs"])
      (∃ c ∈ s.package.modules, c.path = parent.segments ++ [child, "mod.rs"]) := by
  refine (xor_iff_or_and_not_and _ _).mpr ⟨?_, ?_⟩
  · obtain ⟨c, hc, hmodule⟩ := (h.exists_step hindex).mpr hstep
    rcases (h.path_iff hc hstep.ne_mod).mpr hmodule with hpath | hpath
    · exact .inl ⟨c, hc, hpath⟩
    · exact .inr ⟨c, hc, hpath⟩
  · rintro ⟨⟨c, hc, hpath⟩, c', hc', hpath'⟩
    have hmodule := (h.path_iff hc hstep.ne_mod).mp (.inl hpath)
    have hmodule' := (h.path_iff hc' hstep.ne_mod).mp (.inr hpath')
    obtain rfl := List.inj_on_of_nodup_map h.nodup_modules hc hc' (hmodule.trans hmodule'.symm)
    simpa using congrArg List.length (hpath.symm.trans hpath')

end Stages.Succeed

/-- With an index, and no schema file whose path names no module, the package is one tree of
modules. -/
theorem generate_moduleTree {p : Package} (hindex : g.settings.moduleIndex = true)
    (hne : ∀ f ∈ files, f.module.segments ≠ []) (h : generate g files = .ok p) :
    IsModuleTree files p := by
  obtain ⟨s, hs, rfl⟩ := generate_ok.mp h
  have hloads {path : List String} {m : GeneratedModule} :
      Loads s.package path m ↔ m ∈ s.package.modules ∧ m.module = ⟨path⟩ :=
    hs.loads_iff hindex hne
  refine ⟨fun f hf => ?_, fun m hm path => ?_, fun path m m' hm hm' => ?_, fun m hm => ?_,
    fun m hm child hc => ?_, fun m hm hroot => ?_⟩
  · obtain ⟨m, hm, ⟨a⟩⟩ := hs.exists_assembly hf
    exact ⟨m, hm, a.source, a.module⟩
  · exact hloads.trans (and_iff_right hm)
  · obtain ⟨hmem, hmodule⟩ := hloads.mp hm
    obtain ⟨hmem', hmodule'⟩ := hloads.mp hm'
    exact List.inj_on_of_nodup_map hs.nodup_modules hmem hmem' (hmodule.trans hmodule'.symm)
  · exact hs.childNames_items hm ▸ (hs.children_spec m.module).1
  · exact hs.hosted hindex ((hs.mem_childNames hindex hm).mp hc)
  · obtain ⟨⟨segments⟩, hmodule⟩ : ∃ own, m.module = own := ⟨_, rfl⟩
    rcases List.eq_nil_or_concat' segments with rfl | ⟨front, last, rfl⟩
    · exact absurd hmodule hroot
    · have hstep : StepToAny (files.map (·.module)) ⟨front⟩ last :=
        (hs.exists_step hindex).mp ⟨m, hm, hmodule⟩
      obtain ⟨parent, hparent, hp⟩ := hs.exists_parent hindex hstep
      refine ⟨parent, hparent, last, (hs.mem_childNames hindex hparent).mpr (hp ▸ hstep), ?_⟩
      rw [hmodule, hp]

theorem generate_moduleTree_shadowing : indexing.settings.moduleIndex = true ∧
    (∀ f ∈ shadowing, f.module.segments ≠ []) ∧
      ∃ p, generate indexing shadowing = .ok p ∧ IsModuleTree shadowing p := by
  have hne : ∀ f ∈ shadowing, f.module.segments ≠ [] := by decide +kernel
  obtain ⟨p, hp, -⟩ := exists_generate_shadowing
  exact ⟨rfl, hne, p, hp, generate_moduleTree rfl hne hp⟩

end SchemaBindings.Package
