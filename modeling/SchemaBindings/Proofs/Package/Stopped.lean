import SchemaBindings.Proofs.Ending
import SchemaBindings.Proofs.Package.Written

/-!
Packages that are written as far as the files around them allow. The modules are written in order,
each of them whole or not at all, so that a refusal leaves those before it complete and the others
as they were.
-/

namespace SchemaBindings

open FileTree (Location place)
open FilePath (below)
open LawfulFileSystem (text?)

namespace GeneratedModule

/-- The place of a module below a directory. -/
def target (directory : String) (m : GeneratedModule) : Location :=
  place (below directory m.path)

/-- The place beside it where the module is written first. -/
def temporary (directory : String) (m : GeneratedModule) : Location :=
  place (temporaryPath (below directory m.path))

/-- No two modules have the same place, and nothing is written first to the place of a module. -/
structure Apart (directory : String) (modules : List GeneratedModule) : Prop where
  targets : modules.Pairwise fun m m' => m.target directory ≠ m'.target directory
  temporary : ∀ m ∈ modules, ∀ m' ∈ modules, m.temporary directory ≠ m'.target directory

namespace Apart

variable {directory : String} {m : GeneratedModule} {before after : List GeneratedModule}

theorem left (h : Apart directory (before ++ after)) : Apart directory before where
  targets := (List.pairwise_append.mp h.targets).1
  temporary m hm m' hm' :=
    h.temporary m (List.mem_append_left _ hm) m' (List.mem_append_left _ hm')

theorem right (h : Apart directory (before ++ after)) : Apart directory after where
  targets := (List.pairwise_append.mp h.targets).2.1
  temporary m hm m' hm' :=
    h.temporary m (List.mem_append_right _ hm) m' (List.mem_append_right _ hm')

theorem tail (h : Apart directory (m :: after)) : Apart directory after := by
  rw [← List.singleton_append] at h
  exact h.right

theorem target_notMem (h : Apart directory (m :: after)) :
    m.target directory ∉ after.map (target directory) := by
  rintro hmem
  obtain ⟨m', hm', heq⟩ := List.mem_map.mp hmem
  exact (List.pairwise_cons.mp h.targets).1 m' hm' heq.symm

theorem target_notMem_temporary (h : Apart directory before) (hm : m ∈ before) :
    m.target directory ∉ before.map (GeneratedModule.temporary directory) := by
  rintro hmem
  obtain ⟨m', hm', heq⟩ := List.mem_map.mp hmem
  exact h.temporary m' hm' m hm heq

end Apart

end GeneratedModule

open GeneratedModule (Apart)

namespace Package

variable {σ : Type} [FileSystem (StateM σ)] [LawfulFileSystem σ] {s t s' : σ}
  {directory path : String} {m : GeneratedModule} {modules before : List GeneratedModule}

/-- Modules have their contents below a directory, and apart from them only what is beside them may
have changed. -/
structure Written (directory : String) (modules : List GeneratedModule) (s s' : σ) : Prop where
  contents : ∀ m ∈ modules, text? s' (m.target directory) = some m.contents
  others : ∀ l ∉ modules.map (·.target directory), l ∉ modules.map (·.temporary directory) →
    text? s' l = text? s l

/-- The path of the refused step of writing a module after others: the others have their contents,
the module is as it was, and apart from that only what is beside one of them may have changed. -/
structure StoppedAt (directory path : String) (before : List GeneratedModule) (m : GeneratedModule)
    (s s' : σ) : Prop where
  stage : path ∈ [FilePath.parent (below directory m.path), temporaryPath (below directory m.path),
    below directory m.path]
  contents : ∀ m' ∈ before, text? s' (m'.target directory) = some m'.contents
  target : text? s' (m.target directory) = text? s (m.target directory)
  others : ∀ l ∉ before.map (·.target directory),
    l ∉ (before ++ [m]).map (·.temporary directory) → text? s' l = text? s l

theorem Written.cons (ha : Apart directory (m :: modules)) (h : Written directory [m] s t)
    (hrest : Written directory modules t s') : Written directory (m :: modules) s s' where
  contents := by
    refine List.forall_mem_cons.mpr ⟨?_, hrest.contents⟩
    -- No later module is written over the first one, nor first written there.
    have hapart : m.target directory ∉ modules.map (·.temporary directory) := fun hmem =>
      ha.target_notMem_temporary List.mem_cons_self (List.mem_cons_of_mem _ hmem)
    rw [hrest.others _ ha.target_notMem hapart, h.contents m List.mem_cons_self]
  others l htarget htemporary := by
    rw [List.map_cons, List.mem_cons, not_or] at htarget htemporary
    rw [hrest.others l htarget.2 htemporary.2,
      h.others l (by simpa using htarget.1) (by simpa using htemporary.1)]

theorem Written.stoppedAt (ha : Apart directory (before ++ [m])) (h : Written directory before s t)
    (hm : StoppedAt directory path [] m t s') : StoppedAt directory path before m s s' := by
  have hall : m ∈ before ++ [m] := by simp
  have hlast : m.target directory ∉ before.map (·.target directory) := by
    intro hmem
    obtain ⟨m', hm', heq⟩ := List.mem_map.mp hmem
    exact (List.pairwise_append.mp ha.targets).2.2 m' hm' m List.mem_cons_self heq
  have hbeside {m' : GeneratedModule} (hm' : m' ∈ before ++ [m]) :
      m'.target directory ∉ before.map (·.temporary directory) ∧
        m'.target directory ∉ [m].map (·.temporary directory) := by
    have hnone := ha.target_notMem_temporary hm'
    rwa [List.map_append, List.mem_append, not_or] at hnone
  refine ⟨hm.stage, fun m' hm' => ?_, ?_, fun l htarget htemporary => ?_⟩
  · rw [hm.others _ List.not_mem_nil (hbeside (List.mem_append_left _ hm')).2, h.contents m' hm']
  · rw [hm.target, h.others _ hlast (hbeside hall).1]
  · rw [List.map_append, List.mem_append, not_or] at htemporary
    rw [hm.others l List.not_mem_nil htemporary.2, h.others l htarget htemporary.1]

theorem Written.of_text (h : Written directory modules t s') (hkept : text? t = text? s) :
    Written directory modules s s' :=
  ⟨h.contents, hkept ▸ h.others⟩

theorem StoppedAt.of_text (h : StoppedAt directory path before m t s') (hkept : text? t = text? s) :
    StoppedAt directory path before m s s' :=
  ⟨h.stage, h.contents, hkept ▸ h.target, hkept ▸ h.others⟩

/-! ## Writing -/

def writeModule (directory : String) (m : GeneratedModule) : ExceptT Failure (StateM σ) String := do
  writeWhole (below directory m.path) m.contents
  return below directory m.path

theorem writeModule_ends {r : Except Failure String}
    (ha : m.temporary directory ≠ m.target directory)
    (h : Ends (writeModule directory m) s r s') :
    (r = .ok (below directory m.path) ∧ Written directory [m] s s') ∨
      ∃ path, r = .error (.unwritable path) ∧ StoppedAt directory path [] m s s' := by
  rcases h.of_bind with ⟨_, t, hwhole, h⟩ | ⟨e, hwhole, rfl⟩ <;>
    rcases writeWhole_ends hwhole with ⟨hr, htext, hothers⟩ | ⟨path, hstage, hr, hothers⟩ <;>
    cases hr
  · obtain ⟨rfl, rfl⟩ := h.of_pure
    refine .inl ⟨rfl, List.forall_mem_singleton.mpr htext, fun l htarget htemporary => hothers l ?_⟩
    rw [List.map_singleton, List.mem_singleton] at htarget htemporary
    exact List.not_mem_cons_of_ne_of_not_mem htarget (List.mem_singleton.not.mpr htemporary)
  · exact .inr ⟨path, rfl, hstage, nofun, hothers _ (List.mem_singleton.not.mpr ha.symm),
      fun l _ htemporary => hothers l htemporary⟩

theorem mapM_writeModule (ha : Apart directory modules) {paths : List String}
    (h : Ends (modules.mapM (writeModule directory)) s (.ok paths) s') :
    Written directory modules s s' := by
  induction modules generalizing s paths with
  | nil =>
    rw [List.mapM_nil] at h
    obtain ⟨-, rfl⟩ := h.of_pure
    exact ⟨nofun, fun _ _ _ => rfl⟩
  | cons m rest ih =>
    rw [List.mapM_cons] at h
    have hself := ha.temporary m List.mem_cons_self m List.mem_cons_self
    rcases h.of_bind with ⟨_, t, hfirst, h⟩ | ⟨_, _, hr⟩
    · rcases writeModule_ends hself hfirst with ⟨-, hm⟩ | ⟨_, hr, -⟩
      · rcases h.of_bind with ⟨_, t', hrest, h⟩ | ⟨_, _, hr⟩
        · obtain ⟨-, rfl⟩ := h.of_pure
          exact hm.cons ha (ih ha.tail hrest)
        · cases hr
      · cases hr
    · cases hr

/-- A package that is not written as a whole is written up to a module. -/
theorem write_stopped {p : Package} (ha : Apart directory p.modules) {e : Failure}
    (h : Ends (p.write directory) s (.error e) s') :
    ∃ path before m after, e = .unwritable path ∧ p.modules = before ++ m :: after ∧
      StoppedAt directory path before m s s' := by
  have h : Ends (p.modules.mapM (writeModule directory)) s (.error e) s' := h
  rcases h.of_mapM with ⟨_, hr⟩ | ⟨_, before, m, after, _, t, he, hmodules, hbefore, hm⟩
  · cases hr
  · cases he
    rw [hmodules] at ha
    have hself : m.temporary directory ≠ m.target directory :=
      ha.temporary m (by simp) m (by simp)
    rcases writeModule_ends hself hm with ⟨hr, -⟩ | ⟨path, hr, hstopped⟩
    · cases hr
    · cases hr
      rw [← List.singleton_append, ← List.append_assoc] at ha
      exact ⟨path, before, m, after, rfl, hmodules,
        (mapM_writeModule ha.left.left hbefore).stoppedAt ha.left hstopped⟩

/-- Generated modules are written apart from each other. -/
theorem generate_apart {g : Generator} {files : List SchemaFile} {p : Package}
    (hne : ∀ f ∈ files, f.module.segments ≠ []) (h : generate g files = .ok p)
    (directory : String) : Apart directory p.modules := by
  obtain ⟨s, hs, rfl⟩ := generate_ok.mp h
  exact ⟨hs.places_ne hne directory, fun m hm m' hm' => hs.place_temporary_ne hne hm hm' directory⟩

end Package

end SchemaBindings
