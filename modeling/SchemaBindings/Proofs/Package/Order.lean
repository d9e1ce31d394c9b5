import SchemaBindings.Proofs.Package.Enlargement

/-!
The order in which the files of a schema are given does not matter: whether a package is generated,
which modules it has and which imports are deferred depends on nothing but the files.
-/

namespace SchemaBindings.Package

open Code

variable {g : Generator} {files files' : List SchemaFile} {s : Stages}

/-! ## Stages -/

theorem stepToAny_perm {modules modules' : List ModuleId} (hp : modules.Perm modules')
    {parent : ModuleId} {child : String} :
    StepToAny modules parent child ↔ StepToAny modules' parent child := by
  simp only [StepToAny, hp.mem_iff]

/-- The index is made of the modules in whatever order they come. -/
theorem indexOf_perm {t t' : SymbolTable} {modules modules' : List ModuleId} {index : Index}
    (hp : modules.Perm modules') (hlocal : ∀ m name, t'.isLocal m name = t.isLocal m name)
    (h : indexOf t modules = .ok index) : indexOf t' modules' = .ok index := by
  have hadded := indexOf_ok h
  cases h' : indexOf t' modules' with
  | error e =>
    obtain ⟨parent, child, hstep, hclash, -⟩ := indexOf_error h'
    rw [hlocal, hadded.free parent child ((stepToAny_perm hp).mpr hstep)] at hclash
    cases hclash
  | ok index' =>
    have hadded' := indexOf_ok h'
    have hempty : SortedGroups ModuleId.before ([] : Index) := ⟨.nil, nofun⟩
    refine congrArg _ (SortedGroups.ext (hadded'.sorted hempty) (hadded.sorted hempty)
      (hadded'.full nofun) (hadded.full nofun) fun parent child => ?_)
    rw [hadded.inGroup, hadded'.inGroup, stepToAny_perm hp]

/-- With the files in another order every stage succeeds again, and makes the same in another
order. -/
theorem Stages.Succeed.reorder (h : s.Succeed g files) (hp : files.Perm files')
    (hn : DistinctNames files) : ∃ s' : Stages, s'.Succeed g files' ∧
      s'.drafts.Perm s.drafts ∧ s'.resolution = s.resolution ∧ s'.finished.Perm s.finished ∧
        s'.indexFiles = s.indexFiles := by
  have hsub : files ⊆ files' := fun f hf => hp.mem_iff.mp hf
  obtain ⟨t', ht'⟩ : ∃ t', SymbolTable.build files' g.settings.asyncPrefix = .ok t' :=
    SymbolTable.exists_build_iff.mpr ⟨(hp.map _).nodup_iff.mp h.describes.modules,
      fun f hf => h.describes.claimed f (hp.mem_iff.mpr hf)⟩
  have henlarges : Enlarges g files files' s.symbols t' :=
    h.enlarges hn ht' (hn.perm hp) hsub fun d hd _ => (hp.flatMap_right _).mem_iff.mpr hd
  obtain ⟨drafts', hdrafts', hperm⟩ := List.perm_comp_forall₂ hp.symm h.drafts
  have hdrafts : List.Forall₂ (fun f d => draft g t' f = .ok d) files' drafts' :=
    forall₂_imp_of_mem hdrafts' fun f hf d hd => henlarges.draft_eq (hp.mem_iff.mpr hf) hd
  have hsets := importSets_perm_eq hperm (nodup_draft_modules ht' hdrafts)
  obtain ⟨finished', hfinished', hpermf⟩ := List.perm_comp_forall₂ hperm h.finished
  have hbare : (Stages.mk t' drafts' s.resolution s.index finished' s.indexFiles).bare = s.bare :=
    List.filter_congr fun e _ => by
      rw [Bool.not_inj_iff, Bool.eq_iff_iff, List.contains_iff_mem, List.contains_iff_mem]
      exact (hperm.map _).mem_iff
  refine ⟨⟨t', drafts', s.resolution, s.index, finished', s.indexFiles⟩,
    ⟨ht', hdrafts, hsets ▸ h.resolution, ?_, hfinished', hbare ▸ h.indexFiles⟩,
    hperm, rfl, hpermf, rfl⟩
  have hindex := h.index
  split at hindex
  · rw [if_pos ‹_›]
    refine indexOf_perm (hperm.symm.map _) (fun m name => ?_) hindex
    rw [Bool.eq_iff_iff, (SymbolTable.build_ok ht').1.isLocal, h.describes.isLocal]
    simp only [hp.mem_iff]
  · rw [if_neg ‹_›]
    exact hindex

/-! ## Packages -/

/-- Whatever is generated from the files, the same is generated from them in another order. -/
theorem exists_generate_of_perm {p : Package} (h : generate g files = .ok p)
    (hp : files.Perm files') (hn : DistinctNames files) : ∃ p', generate g files' = .ok p' ∧
      p'.modules = p.modules ∧ p'.demoted = p.demoted ∧ p'.stubbed.Perm p.stubbed := by
  obtain ⟨s, hs, rfl⟩ := generate_ok.mp h
  obtain ⟨s', hs', hdrafts, hresolution, hfinished, hindexFiles⟩ := hs.reorder hp hn
  have hmodules : s'.package.modules.Perm s.package.modules := by
    have hall : (s'.finished ++ s'.indexFiles).Perm (s.finished ++ s.indexFiles) := by
      rw [hindexFiles]
      exact hfinished.append_right _
    exact s'.package_modules_perm.trans (hall.trans s.package_modules_perm.symm)
  have hsorted : s'.package.modules = s.package.modules :=
    hmodules.eq_of_pairwise (fun _ _ _ _ hab hba => absurd hba (lt_asymm hab))
      hs'.paths_ascending hs.paths_ascending
  exact ⟨s'.package, generate_ok.mpr ⟨s', hs', rfl⟩, hsorted,
    congrArg Imports.Resolution.demoted hresolution, hdrafts.flatMap_right _⟩

/-- The order of the files does not matter. A package is generated from them in one order exactly
if one is in another order, and then both have the same modules in the same order and the same
deferred imports; the methods whose functions refuse to run are listed in the order of the files. -/
theorem generate_perm (hn : DistinctNames files) (hp : files.Perm files') :
    ((∃ p, generate g files = .ok p) ↔ ∃ p, generate g files' = .ok p) ∧
      ∀ p p', generate g files = .ok p → generate g files' = .ok p' →
        p.modules = p'.modules ∧ p.demoted = p'.demoted ∧ p.stubbed.Perm p'.stubbed := by
  refine ⟨⟨fun ⟨p, h⟩ => ?_, fun ⟨p, h⟩ => ?_⟩, fun p p' h h' => ?_⟩
  · obtain ⟨p', h', -⟩ := exists_generate_of_perm h hp hn
    exact ⟨p', h'⟩
  · obtain ⟨p', h', -⟩ := exists_generate_of_perm h hp.symm (hn.perm hp)
    exact ⟨p', h'⟩
  · obtain ⟨p'', h'', hmodules, hdemoted, hstubbed⟩ := exists_generate_of_perm h hp hn
    obtain rfl := Except.ok.inj (h'.symm.trans h'')
    exact ⟨hmodules.symm, hdemoted.symm, hstubbed.symm⟩

theorem generate_perm_crossing : DistinctNames crossing ∧ crossing.Perm crossing.reverse ∧
    ∃ p p', generate plain crossing = .ok p ∧ generate plain crossing.reverse = .ok p' ∧
      p.modules = p'.modules ∧ p.demoted = p'.demoted ∧ p.stubbed.Perm p'.stubbed := by
  have hp : crossing.Perm crossing.reverse := (List.reverse_perm _).symm
  obtain ⟨hiff, hsame⟩ := generate_perm (g := plain) distinctNames_crossing hp
  obtain ⟨p, h⟩ := exists_generate_crossing
  obtain ⟨p', h'⟩ := hiff.mp ⟨p, h⟩
  exact ⟨distinctNames_crossing, hp, p, p', h, h', hsame p p' h h'⟩

end SchemaBindings.Package
