import SchemaBindings.Proofs.Naming.Modules
import SchemaBindings.Proofs.Package.TopNames

/-!
Where the modules of a package are written to. No two of them share a path, so they stand in the
order of their paths whatever order they were made in.
-/

namespace SchemaBindings.Package

variable {g : Generator} {files : List SchemaFile} {s : Stages} {m m' : GeneratedModule}

namespace Stages.Succeed

theorem modules_finished (h : s.Succeed g files) :
    s.finished.map (·.module) = files.map (·.module) := by
  rw [← modules_of_drafts h.drafts, eq_comm, ← List.forall₂_eq_eq_eq, List.forall₂_map_left_iff,
    List.forall₂_map_right_iff]
  exact h.finished.imp fun d m hm => (finish_ok hm).1.symm

theorem modules_indexFiles (h : s.Succeed g files) :
    s.indexFiles.map (·.module) = s.bare.map (·.1) := by
  rw [eq_comm, ← List.forall₂_eq_eq_eq, List.forall₂_map_left_iff, List.forall₂_map_right_iff]
  exact h.indexFiles.imp fun e m hm => (indexFile_ok hm).1.symm

/-- The modules without a file are those of the index that no schema file has. -/
theorem mem_bare (h : s.Succeed g files) {parent : ModuleId} :
    parent ∈ s.bare.map (·.1) ↔
      parent ∈ s.index.map (·.1) ∧ parent ∉ files.map (·.module) := by
  rw [← modules_of_drafts h.drafts]
  simp [bare, List.mem_filter]

/-- A module is written where its schema file or its place as an index says. -/
theorem path_cases (h : s.Succeed g files) (hm : m ∈ s.package.modules) :
    (∃ f ∈ files, m.module = f.module ∧ m.path = f.module.outputPath) ∨
      m ∈ s.indexFiles ∧ m.path = m.module.segments ++ ["mod.rs"] := by
  rcases h.assembly_or_index hm with ⟨f, hf, ⟨a⟩⟩ | hm
  · exact .inl ⟨f, hf, a.module, a.path⟩
  · obtain ⟨e, -, he⟩ := exists_mem_left h.indexFiles hm
    obtain ⟨hmodule, -, hpath, -⟩ := indexFile_ok he
    exact .inr ⟨hm, hmodule ▸ hpath⟩

/-- No two modules of a package have the same identity. -/
theorem nodup_modules (h : s.Succeed g files) : (s.package.modules.map (·.module)).Nodup := by
  rw [(s.package_modules_perm.map _).nodup_iff, List.map_append, List.nodup_append',
    h.modules_finished, h.modules_indexFiles]
  refine ⟨h.describes.modules, ?_, fun parent hf hb => (h.mem_bare.mp hb).2 hf⟩
  exact h.index_spec.1.nodup_keys.sublist (List.filter_sublist.map _)

/-- No two modules of a package are written to the same place. -/
theorem eq_of_path (h : s.Succeed g files) (hm : m ∈ s.package.modules)
    (hm' : m' ∈ s.package.modules) (hp : m.path = m'.path) : m = m' := by
  refine List.inj_on_of_nodup_map h.nodup_modules hm hm' ?_
  rcases h.path_cases hm with ⟨f, -, hmodule, hpath⟩ | ⟨-, hpath⟩ <;>
    rcases h.path_cases hm' with ⟨f', -, hmodule', hpath'⟩ | ⟨-, hpath'⟩ <;>
    rw [hpath, hpath'] at hp
  · rw [hmodule, hmodule', ModuleId.outputPath_injective hp]
  · exact absurd hp (f.outputPath_ne _)
  · exact absurd hp.symm (f'.outputPath_ne _)
  · exact congrArg ModuleId.mk (List.append_inj' hp rfl).1

/-- The modules of a package stand in the strict order of their paths. -/
theorem paths_ascending (h : s.Succeed g files) :
    s.package.modules.Pairwise fun m m' => m.path < m'.path := by
  have hpaths : ((s.finished ++ s.indexFiles).map (·.path)).Nodup := by
    have hperm := s.package_modules_perm
    exact (hperm.nodup_iff.mp h.nodup_modules.of_map).map_on fun m hm m' hm' =>
      h.eq_of_path (hperm.mem_iff.mpr hm) (hperm.mem_iff.mpr hm')
  exact (pairwise_sortedByKey (fun a b => decide (a < b)) _ hpaths).imp of_decide_eq_true

end Stages.Succeed

end SchemaBindings.Package
