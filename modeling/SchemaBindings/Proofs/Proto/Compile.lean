import SchemaBindings.Proto.Compile
import SchemaBindings.Proofs.Faultless
import SchemaBindings.Proofs.Schema.Definitions

/-!
What compiling schema files answers: only files that can be found are compiled, so that every loaded
file has a name and its module is not the root of the module tree.
-/

namespace SchemaBindings

/-- The ways in which loading schema files fails. -/
def Failure.OfLoading : Failure → Prop
  | .unreadable _ | .notCompiled | .missingSchema _ => True
  | _ => False

namespace Proto

variable {sources : Sources} {pool pool' : Pool} {path missing : String} {paths : List String}

namespace Pool

def filePaths (pool : Pool) : List String :=
  pool.map (·.path)

theorem filePaths_of_add? {source : FileSource} (h : pool.add? path source = some pool') :
    pool'.filePaths = pool.filePaths ++ [path] := by
  unfold add? push? at h
  simp only [Option.bind_eq_bind, Option.bind_eq_some_iff] at h
  obtain ⟨pushed, hpush, h⟩ := h
  split at hpush
  · cases hpush
  · obtain ⟨⟨descriptor, extensions⟩, -, hpushed⟩ := Option.bind_eq_some_iff.mp hpush
    split at h <;> cases h
    cases hpushed
    rw [filePaths, filePaths, List.map_append]
    rfl

theorem file?_eq_none (h : missing ∉ pool.filePaths) : pool.file? missing = none := by
  rw [file?, List.find?_eq_none]
  intro f hf hpath
  exact h (List.mem_map.mpr ⟨f, hf, beq_iff_eq.mp hpath⟩)

/-- Adding files one after another, none of which is the missing one. -/
theorem foldlM_missing {add : Pool → String → Option Pool}
    (hadd : ∀ {pool path pool'}, add pool path = some pool' → missing ∉ pool.filePaths →
      path ≠ missing ∧ missing ∉ pool'.filePaths)
    (h : paths.foldlM add pool = some pool') (hpool : missing ∉ pool.filePaths) :
    missing ∉ paths ∧ missing ∉ pool'.filePaths := by
  induction paths generalizing pool with
  | nil =>
    cases h
    exact ⟨List.not_mem_nil, hpool⟩
  | cons path rest ih =>
    rw [List.foldlM_cons] at h
    obtain ⟨next, hnext, h⟩ := Option.bind_eq_some_iff.mp h
    obtain ⟨hne, hnext⟩ := hadd hnext hpool
    obtain ⟨hrest, hpool'⟩ := ih h hnext
    exact ⟨List.not_mem_cons_of_ne_of_not_mem hne.symm hrest, hpool'⟩

/-- A file that cannot be found is not added, nor is anything that imports it. -/
theorem addAll?_missing (hnone : find? sources missing = none) {fuel : Nat} {stack : List String}
    (h : addAll? sources fuel stack pool path = some pool') (hpool : missing ∉ pool.filePaths) :
    path ≠ missing ∧ missing ∉ pool'.filePaths := by
  -- What the file imports is added with less fuel, and none of it is the missing file either.
  induction fuel generalizing stack pool path pool' with
  | zero => cases h
  | succ fuel ih =>
    rw [addAll?] at h
    split at h
    · cases h
    · split at h
      · next hthere =>
        cases h
        refine ⟨?_, hpool⟩
        rintro rfl
        rw [file?_eq_none hpool] at hthere
        cases hthere
      · obtain ⟨file, hfile, h⟩ := Option.bind_eq_some_iff.mp h
        have hne : path ≠ missing := by
          rintro rfl
          rw [hnone] at hfile
          cases hfile
        split at h
        · cases h
        · obtain ⟨imported, himports, h⟩ := Option.bind_eq_some_iff.mp h
          have hafter := (foldlM_missing (fun hadd => ih hadd) himports hpool).2
          refine ⟨hne, ?_⟩
          rw [filePaths_of_add? h, List.mem_append, List.mem_singleton]
          exact not_or.mpr ⟨hafter, hne.symm⟩

end Pool

theorem missing_notMem_of_compile? (hnone : find? sources missing = none)
    (h : compile? sources paths = some pool) : missing ∉ paths :=
  (Pool.foldlM_missing (fun hadd => Pool.addAll?_missing hnone hadd) h List.not_mem_nil).1

/-- A path without a name leads nowhere, and is compiled as such. -/
theorem compiledPath?_of_segments {name : String} (h : compiledPath? path = some name)
    (hnone : (ModuleId.ofSchemaPath path).segments = []) : name = "" := by
  obtain ⟨hfront, hstem⟩ := List.append_eq_nil_iff.mp (List.map_eq_nil_iff.mp hnone)
  unfold compiledPath? plainPath? at h
  split at h <;> cases h
  next hplain =>
  have hempty : (FilePath.components path).filter (· != .current) = [] := by
    rw [List.eq_nil_iff_forall_not_mem]
    intro c hc
    have hnormal := List.all_eq_true.mp hplain c hc
    obtain ⟨n, rfl⟩ : ∃ n, c = .normal n := by
      cases c <;> first | exact ⟨_, rfl⟩ | cases hnormal
    have hmem := (List.mem_filter.mp hc).1
    obtain ⟨last, hlast⟩ := Option.ne_none_iff_exists'.mp
      (mt List.getLast?_eq_none_iff.mp (List.ne_nil_of_mem hmem))
    rw [← List.dropLast_append_getLast? _ hlast, List.mem_append, List.mem_singleton] at hmem
    rcases hmem with hmem | rfl
    · have hname : n ∈ FilePath.names (FilePath.components path).dropLast :=
        List.mem_filterMap.mpr ⟨_, hmem, rfl⟩
      rw [hfront] at hname
      cases hname
    · rw [FilePath.stem?, FilePath.fileName?, hlast] at hstem
      cases hstem
  rw [hempty]
  rfl

/-- Where no source is without a name, loading gives files that have one. -/
theorem load_yields (hnone : sources.lookup "" = none) :
    Yields Failure.OfLoading (load sources paths) fun files =>
      ∀ f ∈ files, f.module.segments ≠ [] := by
  unfold load
  split
  · exact .ok nofun
  · split
    · exact .error trivial
    · next pool hpool =>
      obtain ⟨names, hnames, hcompiled⟩ := Option.bind_eq_some_iff.mp hpool
      have hfind : find? sources "" = none := by
        have hpath : plainPath? ((FilePath.components "").filter (· != .current)) = some "" := by
          decide
        rw [find?, hpath, Option.bind_some, hnone]
        rfl
      have hmissing := missing_notMem_of_compile? hfind hcompiled
      refine Yields.mapM fun path hpath => ?_
      split
      · refine .ok fun hsegments => ?_
        obtain ⟨name, hname, hof⟩ := exists_mem_right (mapM_some.mp hnames) hpath
        exact hmissing (compiledPath?_of_segments hof hsegments ▸ hname)
      · exact .error trivial

end Proto

end SchemaBindings
