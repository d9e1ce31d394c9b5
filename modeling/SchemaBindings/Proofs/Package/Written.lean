import SchemaBindings.Proofs.FileTree.Replacement
import SchemaBindings.Proofs.Package.Composition
import SchemaBindings.Proofs.Package.ModuleTree

/-!
Packages as files. No module of a package is written to a directory of another one, so that whatever
order the modules are written in, each of them ends up with its own contents, and nothing else
changes.
-/

namespace SchemaBindings

open FileTree FilePath

/-! ## Paths of modules -/

/-- The path of a file of the generated language below directories that have names of modules. -/
structure ModuleId.IsPath (path front : List String) (stem : String) : Prop where
  eq : path = front ++ [stem ++ "." ++ "rs"]
  front : ∀ segment ∈ front, IsSegment segment
  stem : IsSegment stem

namespace ModuleId

variable {path path' front front' : List String} {segment stem stem' : String}

theorem IsSegment.isName (h : IsSegment segment) : IsName segment where
  nonempty := h.nonempty
  current := by
    rintro rfl
    exact h.dot (by decide)
  parent := by
    rintro rfl
    exact h.dot (by decide)
  slash := h.slash

theorem IsSegment.ne_withExtension (h : IsSegment segment) (stem extension : String) :
    segment ≠ stem ++ "." ++ extension := by
  rintro rfl
  exact h.dot (by simp [String.toList_append])

theorem toList_withExtension (stem extension : String) :
    (stem ++ "." ++ extension).toList = stem.toList ++ '.' :: extension.toList := by
  simp [String.toList_append]

theorem IsSegment.isName_withExtension (h : IsSegment stem) {extension : String}
    (hext : '/' ∉ extension.toList) :
    IsName (stem ++ "." ++ extension) := by
  obtain ⟨c, cs, hstem⟩ : ∃ c cs, stem.toList = c :: cs := by
    refine List.exists_cons_of_ne_nil fun hnil => h.nonempty ?_
    rw [← String.toList_inj, hnil]
    rfl
  have hfirst : (stem ++ "." ++ extension).toList.head? = some c := by
    rw [toList_withExtension, hstem]
    rfl
  have hdot : c ≠ '.' := by
    rintro rfl
    exact h.dot (hstem ▸ List.mem_cons_self)
  refine ⟨?_, ?_, ?_, ?_⟩
  · intro heq
    rw [heq] at hfirst
    cases hfirst
  · intro heq
    rw [heq] at hfirst
    exact hdot (Option.some.inj hfirst).symm
  · intro heq
    rw [heq] at hfirst
    exact hdot (Option.some.inj hfirst).symm
  · rw [toList_withExtension]
    simp [h.slash, hext]

/-- The name before the last dot. -/
theorem splitName_withExtension (h : IsSegment stem) {extension : String}
    (hext : '.' ∉ extension.toList) :
    (splitName (stem ++ "." ++ extension)).1 = stem := by
  have hall : ∀ c ∈ extension.toList.reverse, (c != '.') = true := by
    intro c hc
    rw [bne_iff_ne]
    rintro rfl
    exact hext (List.mem_reverse.mp hc)
  have hafter : ((stem ++ "." ++ extension).toList.reverse.takeWhile (· != '.')).reverse =
      extension.toList := by
    rw [toList_withExtension, List.reverse_append, List.reverse_cons, List.append_assoc,
      List.takeWhile_append_of_pos hall]
    simp
  have hnonempty : stem.toList ≠ [] := by
    intro hnil
    refine h.nonempty ?_
    rw [← String.toList_inj, hnil]
    rfl
  rw [splitName, hafter, toList_withExtension, List.length_append, List.length_cons]
  have hlength : stem.toList.length + (extension.toList.length + 1) - extension.toList.length - 1 =
      stem.toList.length := by omega
  simp only [hlength, List.take_left', String.ofList_toList]
  rw [if_neg]
  rintro (hshort | hempty)
  · omega
  · exact hnonempty (List.isEmpty_iff.mp hempty)

namespace IsPath

theorem isName (h : IsPath path front stem) :
    ∀ name ∈ front ++ [stem ++ "." ++ "rs"], IsName name := by
  intro name hname
  rcases List.mem_append.mp hname with hname | hname
  · exact (h.front name hname).isName
  · rw [List.mem_singleton.mp hname]
    exact h.stem.isName_withExtension (by decide)

/-- A module is written to its path by way of a path beside it. -/
theorem isTarget (h : IsPath path front stem) (directory : String) :
    ∃ before, IsTarget (below directory path) before (stem ++ "." ++ "rs") ∧
      steps before = components directory ++ front.map .normal := by
  obtain ⟨before, hends, hsteps⟩ := endsWith_below directory h.isName
  rw [← h.eq] at hends
  have hstem : (splitName (stem ++ "." ++ "rs")).1 = stem :=
    splitName_withExtension h.stem (by decide)
  refine ⟨before, ⟨hends, ?_, ?_⟩, hsteps⟩
  · refine hends.withExtension_endsWith ?_
    rw [hstem]
    exact h.stem.isName_withExtension (by decide)
  · rw [hstem]
    intro heq
    exact absurd ((String.append_right_inj _).mp heq) (by decide)

/-- The locations that writing a module is about. -/
theorem place_eq (h : IsPath path front stem) (directory : String) :
    place (below directory path) =
      place directory ++ (front ++ [stem ++ "." ++ "rs"]) := by
  obtain ⟨before, htarget, hsteps⟩ := h.isTarget directory
  rw [htarget.endsWith.place_eq, hsteps, arrive_append, arrive_names, List.append_assoc]
  rfl

theorem place_temporary_eq (h : IsPath path front stem) (directory : String) :
    place (temporaryPath (below directory path)) =
      place directory ++ (front ++ [stem ++ "." ++ "tmp"]) := by
  obtain ⟨before, htarget, hsteps⟩ := h.isTarget directory
  rw [htarget.temporary.place_eq, hsteps, arrive_append, arrive_names, List.append_assoc,
    splitName_withExtension h.stem (by decide)]
  rfl

theorem mem_around (h : IsPath path front stem) (directory : String) {l : Location} :
    l ∈ around (below directory path) ↔ l ∈ stops [] (components directory) ∨
      ∃ outer, outer ≠ [] ∧ outer <+: front ∧ l = place directory ++ outer := by
  obtain ⟨before, htarget, hsteps⟩ := h.isTarget directory
  rw [htarget.endsWith.around_eq, hsteps, stops_append, List.mem_append, mem_stops_names]
  rfl

/-- No directory of one module is the file of another. -/
theorem not_prefix (h : IsPath path front stem) {extension : String} (stem' : String)
    {front' : List String} : ¬ front' ++ [stem' ++ "." ++ extension] <+: front := by
  intro hprefix
  have hmem : stem' ++ "." ++ extension ∈ front := hprefix.subset (by simp)
  exact (h.front _ hmem).ne_withExtension stem' extension rfl

theorem eq_of_prefix (h : IsPath path front stem) (h' : IsPath path' front' stem')
    (hleads : path <+: path') : path = path' := by
  rw [h.eq, h'.eq, List.prefix_concat_iff] at hleads
  rw [h.eq, h'.eq]
  exact hleads.resolve_right (h'.not_prefix stem)

/-- A temporary path is not the path of a module. -/
theorem place_temporary_ne (h : IsPath path front stem) (h' : IsPath path' front' stem')
    (directory : String) :
    place (temporaryPath (below directory path)) ≠ place (below directory path') := by
  rw [h.place_temporary_eq, h'.place_eq]
  intro heq
  have hlast := (List.append_inj' (List.append_cancel_left heq) rfl).2
  have htexts := congrArg (fun name => name.toList.getLast?) (List.singleton_inj.mp hlast)
  simp [String.toList_append] at htexts

end IsPath

end ModuleId

open ModuleId

/-! ## Where the modules of a package are -/

namespace Package

variable {g : Generator} {files : List SchemaFile} {s : Stages} {m m' : GeneratedModule}

namespace Stages.Succeed

/-- An index stands on the way to the module of a schema file, and is not one itself. -/
theorem exists_stepToAny (h : s.Succeed g files) (hm : m ∈ s.indexFiles) :
    m.module ∉ files.map (·.module) ∧
      ∃ child, StepToAny (files.map (·.module)) m.module child := by
  have hbare : m.module ∈ s.bare.map (·.1) := by
    rw [← h.modules_indexFiles]
    exact List.mem_map_of_mem hm
  obtain ⟨hkey, hother⟩ := h.mem_bare.mp hbare
  refine ⟨hother, ?_⟩
  by_cases hindex : g.settings.moduleIndex = true
  · exact (h.mem_keys_index hindex).mp hkey
  · have hnone := h.index
    rw [if_neg hindex] at hnone
    rw [← Except.ok.inj hnone] at hkey
    exact absurd hkey List.not_mem_nil

/-- Every module of a package has a path by its name or as an index. -/
theorem isPath (h : s.Succeed g files) (hne : ∀ f ∈ files, f.module.segments ≠ [])
    (hm : m ∈ s.package.modules) : ∃ front stem, IsPath m.path front stem := by
  rcases h.path_cases hm with ⟨f, hf, -, hpath⟩ | ⟨hindex, hpath⟩
  · obtain ⟨⟨own⟩, hown⟩ : ∃ own, f.module = own := ⟨_, rfl⟩
    rcases List.eq_nil_or_concat' own with rfl | ⟨front, last, rfl⟩
    · exact absurd (congrArg ModuleId.segments hown) (hne f hf)
    · have hsegment : ∀ segment ∈ front ++ [last], IsSegment segment := by
        intro segment hs
        exact f.isSegment_of_mem (hown ▸ hs)
      refine ⟨front, last, ?_, fun segment hs => hsegment segment (by simp [hs]),
        hsegment last (by simp)⟩
      rw [hpath, hown, outputPath_concat, String.append_assoc]
      rfl
  · obtain ⟨-, child, leaf, hleaf, hstep⟩ := h.exists_stepToAny hindex
    obtain ⟨f, -, rfl⟩ := List.mem_map.mp hleaf
    refine ⟨m.module.segments, "mod", hpath, fun segment hs => ?_, isSegment_mod⟩
    exact f.isSegment_of_mem ((stepTo_iff.mp hstep).subset (List.mem_append_left _ hs))

/-- Different modules are written to different places, in the order of their paths. -/
theorem places_ne (h : s.Succeed g files) (hne : ∀ f ∈ files, f.module.segments ≠ [])
    (directory : String) : s.package.modules.Pairwise fun m m' =>
      place (below directory m.path) ≠ place (below directory m'.path) := by
  refine List.Pairwise.imp_of_mem ?_ h.paths_ascending
  intro m m' hm hm' hlt heq
  obtain ⟨front, stem, hpath⟩ := h.isPath hne hm
  obtain ⟨front', stem', hpath'⟩ := h.isPath hne hm'
  rw [hpath.place_eq, hpath'.place_eq, ← hpath.eq, ← hpath'.eq] at heq
  rw [List.append_cancel_left heq] at hlt
  exact lt_irrefl _ hlt

/-- What is written beside a module is not in the place of a module. -/
theorem place_temporary_ne (h : s.Succeed g files) (hne : ∀ f ∈ files, f.module.segments ≠ [])
    (hm : m ∈ s.package.modules) (hm' : m' ∈ s.package.modules) (directory : String) :
    place (temporaryPath (below directory m.path)) ≠ place (below directory m'.path) := by
  obtain ⟨front, stem, hpath⟩ := h.isPath hne hm
  obtain ⟨front', stem', hpath'⟩ := h.isPath hne hm'
  exact hpath.place_temporary_ne hpath' directory

/-- No module is written to a directory of another one. -/
theorem eq_of_prefix (h : s.Succeed g files) (hne : ∀ f ∈ files, f.module.segments ≠ [])
    (hm : m ∈ s.package.modules) (hm' : m' ∈ s.package.modules) (hleads : m.path <+: m'.path) :
    m = m' := by
  obtain ⟨front, stem, hpath⟩ := h.isPath hne hm
  obtain ⟨front', stem', hpath'⟩ := h.isPath hne hm'
  exact h.eq_of_path hm hm' (hpath.eq_of_prefix hpath' hleads)

end Stages.Succeed

/-! ## Writing the modules -/

/-- The modules with the paths that they have below a directory. -/
def outputs (p : Package) (directory : String) : List (String × String) :=
  p.modules.map fun m => (below directory m.path, m.contents)

theorem write_eq (p : Package) (directory : String) :
    (p.write directory : ExceptT Failure (StateM FileTree) _) = writeAll (p.outputs directory) := by
  rw [write, outputs, writeAll, List.mapM_map]
  rfl

theorem outputs_paths (p : Package) (directory : String) :
    (p.outputs directory).map (·.1) = p.modules.map fun m => below directory m.path := by
  rw [outputs, List.map_map]
  rfl

theorem forall_mem_outputs {p : Package} {directory : String} {P : String × String → Prop} :
    (∀ f ∈ p.outputs directory, P f) ↔ ∀ m ∈ p.modules, P (below directory m.path, m.contents) :=
  List.forall_mem_map

/-- Nothing on a tree is in the way of a package below a directory. -/
structure Fits (p : Package) (directory : String) (t : FileTree) : Prop where
  around : ∀ m ∈ p.modules, ∀ l ∈ around (below directory m.path), ∀ text,
    t.get? l ≠ some (.file text)
  target : ∀ m ∈ p.modules, t.get? (place (below directory m.path)) ≠ some .directory
  temporary : ∀ m ∈ p.modules, t.get? (place (temporaryPath (below directory m.path))) = none

variable {directory : String} {t t' : FileTree} {paths : List String}

/-- A package fits if nothing but directories is around its paths, and no directory in their
place. -/
theorem Fits.of_paths {p : Package} {known : List (List String)}
    (hpaths : ∀ m ∈ p.modules, m.path ∈ known)
    (haround : ∀ path ∈ known, ∀ l ∈ FileTree.around (below directory path),
      t.get? l = none ∨ t.get? l = some .directory)
    (hplace : ∀ path ∈ known, t.get? (place (below directory path)) ≠ some .directory ∧
      t.get? (place (temporaryPath (below directory path))) = none) : p.Fits directory t where
  around m hm l hl text hfile := by
    rcases haround _ (hpaths m hm) l hl with hget | hget <;> rw [hget] at hfile <;> cases hfile
  target m hm := (hplace _ (hpaths m hm)).1
  temporary m hm := (hplace _ (hpaths m hm)).2

/-- No directory that the path of the output directory passes through has the place of a module or
of its temporary file, as `a.rs` has in `a.rs/..`. -/
def AvoidedBy (p : Package) (directory : String) : Prop :=
  ∀ m ∈ p.modules, place (below directory m.path) ∉ stops [] (components directory) ∧
    place (temporaryPath (below directory m.path)) ∉ stops [] (components directory)

/-- The directory exists, or its path does not go up again. -/
def IsPlainWay (directory : String) (t : FileTree) : Prop :=
  (∀ l ∈ stops [] (components directory), t.get? l = some .directory) ∨
    Component.parent ∉ components directory

/-- What is below such a directory is not among the directories on the way there. -/
theorem IsPlainWay.notMem_stops (hway : IsPlainWay directory t) {inner : FileTree.Location}
    (hne : inner ≠ []) (h : t.get? (place directory ++ inner) ≠ some .directory) :
    place directory ++ inner ∉ stops [] (components directory) := by
  intro hmem
  rcases hway with hexists | hdown
  · exact h (hexists _ hmem)
  · have hlength := (prefix_place hdown hmem).length_le
    rw [List.length_append] at hlength
    have hpos := List.length_pos_of_ne_nil hne
    omega

namespace Stages.Succeed

/-- Where a package fits, its modules are avoided by such a directory. -/
theorem avoidedBy_of_isPlainWay (h : s.Succeed g files)
    (hne : ∀ f ∈ files, f.module.segments ≠ []) (hfits : s.package.Fits directory t)
    (hway : IsPlainWay directory t) : s.package.AvoidedBy directory := by
  intro m hm
  obtain ⟨front, stem, hpath⟩ := h.isPath hne hm
  have htarget := hfits.target m hm
  have htemporary := hfits.temporary m hm
  rw [hpath.place_eq] at htarget ⊢
  rw [hpath.place_temporary_eq] at htemporary ⊢
  refine ⟨hway.notMem_stops (by simp) htarget, hway.notMem_stops (by simp) ?_⟩
  rw [htemporary]
  exact fun heq => nomatch heq

/-- Only past its modules a package can be written. -/
theorem avoidedBy_of_runs (h : s.Succeed g files) (hne : ∀ f ∈ files, f.module.segments ≠ [])
    (hruns : Runs (s.package.write directory) t paths t') : s.package.AvoidedBy directory := by
  intro m hm
  obtain ⟨front, stem, hpath⟩ := h.isPath hne hm
  obtain ⟨before, htarget, -⟩ := hpath.isTarget directory
  have hstops : stops [] (components directory) ⊆ around (below directory m.path) :=
    fun _ hl => (hpath.mem_around directory).mpr (.inl hl)
  obtain ⟨_, _, _, hends⟩ := Ends.of_mapM_ok hruns m hm
  rcases hends.of_bind with ⟨_, _, hwhole, -⟩ | ⟨_, -, he⟩
  · obtain ⟨hfile, hbeside⟩ := notMem_around_of_writeWhole htarget hwhole
    exact ⟨fun hmem => hfile (hstops hmem), fun hmem => hbeside (hstops hmem)⟩
  · cases he

/-- Neither a module nor its temporary file takes the place of a directory around a module. -/
theorem notMem_around (h : s.Succeed g files) (hne : ∀ f ∈ files, f.module.segments ≠ [])
    (havoided : s.package.AvoidedBy directory) (hm : m ∈ s.package.modules)
    (hm' : m' ∈ s.package.modules) :
    place (below directory m.path) ∉ around (below directory m'.path) ∧
      place (temporaryPath (below directory m.path)) ∉ around (below directory m'.path) := by
  obtain ⟨front, stem, hpath⟩ := h.isPath hne hm
  obtain ⟨front', stem', hpath'⟩ := h.isPath hne hm'
  have hbeside (extension : String)
      (havoided : place directory ++ (front ++ [stem ++ "." ++ extension]) ∉
        stops [] (components directory)) :
      place directory ++ (front ++ [stem ++ "." ++ extension]) ∉
        around (below directory m'.path) := by
    intro hmem
    rcases (hpath'.mem_around directory).mp hmem with hstop | ⟨outer, -, houter, heq⟩
    · exact havoided hstop
    · rw [← List.append_cancel_left heq] at houter
      exact hpath'.not_prefix stem houter
  obtain ⟨hfile, htemporary⟩ := havoided m hm
  rw [hpath.place_eq] at hfile ⊢
  rw [hpath.place_temporary_eq] at htemporary ⊢
  exact ⟨hbeside "rs" hfile, hbeside "tmp" htemporary⟩

/-- The modules can be written one after another. -/
theorem independent (h : s.Succeed g files) (hne : ∀ f ∈ files, f.module.segments ≠ [])
    (havoided : s.package.AvoidedBy directory) :
    Independent ((s.package.outputs directory).map (·.1)) := by
  rw [outputs_paths]
  refine ⟨?_, ?_, ?_⟩
  · rw [List.forall_mem_map]
    intro m hm
    obtain ⟨front, stem, hpath⟩ := h.isPath hne hm
    obtain ⟨before, htarget, -⟩ := hpath.isTarget directory
    exact ⟨before, _, htarget⟩
  · rw [List.pairwise_map]
    exact h.places_ne hne directory
  · rw [List.forall_mem_map]
    intro m hm
    rw [List.forall_mem_map]
    intro m' hm'
    obtain ⟨htarget, htemporary⟩ := h.notMem_around hne havoided hm hm'
    exact ⟨htarget, htemporary, h.place_temporary_ne hne hm hm' directory⟩

theorem writable (h : s.Succeed g files) (hne : ∀ f ∈ files, f.module.segments ≠ [])
    (hfits : s.package.Fits directory t) (havoided : s.package.AvoidedBy directory) :
    ∀ f ∈ s.package.outputs directory, t.Writable f.1 := by
  rw [forall_mem_outputs]
  intro m hm
  exact ⟨hfits.around m hm, hfits.target m hm, hfits.temporary m hm,
    h.notMem_around hne havoided hm hm⟩

end Stages.Succeed

/-- What writing a package below a directory does to a tree: it succeeds with the paths of the
modules, overwrites exactly those and leaves nothing else behind. Doing it again changes nothing. -/
structure Writes (p : Package) (directory : String) (t t' : FileTree) : Prop where
  runs : Runs (p.write directory) t (p.modules.map fun m => below directory m.path) t'
  overwrites : t.Overwrites (p.outputs directory) t'
  temporary : ∀ m ∈ p.modules, t'.get? (place (temporaryPath (below directory m.path))) = none
  again : ∃ t'', Runs (p.write directory) t' (p.modules.map fun m => below directory m.path) t'' ∧
    ∀ l, t''.get? l = t'.get? l

/-- The modules of a package have different paths in ascending order, none of which is a directory
of another one. Whatever tree they fit in, they can be written there unless a directory on the way
to them is in the place of one, which is never so if the output directory exists or its path does
not go up again. Otherwise they are written to no tree. -/
theorem generate_writes {p : Package} (hne : ∀ f ∈ files, f.module.segments ≠ [])
    (h : generate g files = .ok p) :
    (p.modules.Pairwise fun m m' => m.path < m'.path ∧ m.path ≠ m'.path) ∧
      (∀ m ∈ p.modules, ∀ m' ∈ p.modules, m.path <+: m'.path → m = m') ∧
        ∀ directory,
          (∀ m ∈ p.modules, components (below directory m.path) =
            components directory ++ m.path.map .normal) ∧
          (∀ t, p.Fits directory t →
            (p.AvoidedBy directory → ∃ t', p.Writes directory t t') ∧
              (IsPlainWay directory t → p.AvoidedBy directory)) ∧
          ∀ t paths t', Runs (p.write directory) t paths t' → p.AvoidedBy directory := by
  obtain ⟨s, hs, rfl⟩ := generate_ok.mp h
  refine ⟨hs.paths_ascending.imp fun hlt => ⟨hlt, ne_of_lt hlt⟩,
    fun m hm m' hm' => hs.eq_of_prefix hne hm hm', fun directory => ⟨fun m hm => ?_,
      fun t hfits => ⟨fun havoided => ?_, hs.avoidedBy_of_isPlainWay hne hfits⟩,
      fun _ _ _ => hs.avoidedBy_of_runs hne⟩⟩
  · obtain ⟨front, stem, hpath⟩ := hs.isPath hne hm
    rw [hpath.eq, components_below directory hpath.isName]
  · have hindependent := hs.independent hne havoided
    have hwritable := hs.writable hne hfits havoided
    obtain ⟨t', hruns, hover⟩ := writeAll_runs hindependent hwritable
    obtain ⟨t'', hruns', hover'⟩ :=
      writeAll_runs hindependent (hover.writable hindependent hwritable)
    rw [← write_eq, outputs_paths] at hruns hruns'
    exact ⟨t', hruns, hover, forall_mem_outputs.mp (hover.temporary hindependent hwritable),
      t'', hruns', hover.again hover'⟩

/-- An output directory with a module of an earlier package, beside a file. -/
def earlier : FileTree where
  nodes := [(["notes"], .file "kept"), (["out"], .directory), (["out", "a.rs"], .file "old")]

theorem generate_writes_shadowing : (∀ f ∈ shadowing, f.module.segments ≠ []) ∧
    ∃ p, generate indexing shadowing = .ok p ∧ p.Fits "new/../out" earlier ∧
      p.AvoidedBy "new/../out" ∧ ∃ t', p.Writes "new/../out" earlier t' := by
  have hne : ∀ f ∈ shadowing, f.module.segments ≠ [] := by decide +kernel
  obtain ⟨p, hp, -⟩ := exists_generate_shadowing
  obtain ⟨s, hs, hpackage⟩ := generate_ok.mp hp
  have hmodules : shadowing.map (·.module) = [⟨["a"]⟩, ⟨["a", "b"]⟩, ⟨["c"]⟩] := by decide +kernel
  have hpaths : ∀ m ∈ p.modules, m.path ∈ [["a.rs"], ["a", "b.rs"], ["c.rs"], ["mod.rs"]] := by
    intro m hm
    rw [← hpackage] at hm
    rcases hs.path_cases hm with ⟨f, hf, -, hpath⟩ | ⟨hindex, hpath⟩
    · have hmem := List.mem_map_of_mem (f := (·.module)) hf
      rw [hmodules] at hmem
      rw [hpath]
      generalize f.module = own at hmem
      have hall : ∀ own ∈ [⟨["a"]⟩, ⟨["a", "b"]⟩, ⟨["c"]⟩],
          outputPath own ∈ [["a.rs"], ["a", "b.rs"], ["c.rs"], ["mod.rs"]] := by decide
      exact hall own hmem
    · obtain ⟨hother, child, leaf, hleaf, hstep⟩ := hs.exists_stepToAny hindex
      rw [hmodules] at hother hleaf
      have hprefix := stepTo_iff.mp hstep
      obtain ⟨segments, hsegments⟩ : ∃ segments, m.module = ⟨segments⟩ := ⟨_, rfl⟩
      rw [hpath, hsegments]
      rw [hsegments] at hother hprefix
      have hroot : segments = [] := by
        simp only [List.mem_cons, List.not_mem_nil, or_false] at hleaf
        rcases segments with - | ⟨name, - | ⟨next, rest⟩⟩
        · rfl
        all_goals rcases hleaf with rfl | rfl | rfl <;> simp_all
      rw [hroot]
      decide
  have hfits : p.Fits "new/../out" earlier :=
    .of_paths hpaths (by decide +kernel) (by decide +kernel)
  have hstops : ∀ path ∈ [["a.rs"], ["a", "b.rs"], ["c.rs"], ["mod.rs"]],
      place (below "new/../out" path) ∉ stops [] (components "new/../out") ∧
      place (temporaryPath (below "new/../out" path)) ∉ stops [] (components "new/../out") := by
    decide +kernel
  have havoided : p.AvoidedBy "new/../out" := fun m hm => hstops _ (hpaths m hm)
  exact ⟨hne, p, hp, hfits, havoided,
    (((generate_writes hne hp).2.2 "new/../out").2.1 earlier hfits).1 havoided⟩

/-- Nothing in the empty tree is in the way of a package that goes to `d.rs/..`, but the directory
that is made first is in the place of its module. -/
theorem generate_writes_blocked : (∀ f ∈ standalone, f.module.segments ≠ []) ∧
    ∃ p, generate plain standalone = .ok p ∧ p.Fits "d.rs/.." {} ∧
      ∀ paths t', ¬ Runs (p.write "d.rs/..") {} paths t' := by
  have hne : ∀ f ∈ standalone, f.module.segments ≠ [] := by decide +kernel
  obtain ⟨p, hp⟩ := exists_generate_standalone
  obtain ⟨s, hs, rfl⟩ := generate_ok.mp hp
  have hmodules : standalone.map (·.module) = [⟨["d"]⟩] := by decide +kernel
  have hpaths : ∀ m ∈ s.package.modules, m.path ∈ [["d.rs"]] := by
    intro m hm
    rcases hs.path_cases hm with ⟨f, hf, -, hpath⟩ | ⟨hindex, -⟩
    · have hmem := List.mem_map_of_mem (f := (·.module)) hf
      rw [hmodules, List.mem_singleton] at hmem
      rw [hpath, hmem]
      decide
    · rw [(hs.indexFiles_eq_nil rfl).2] at hindex
      cases hindex
  have hfits : s.package.Fits "d.rs/.." {} :=
    .of_paths hpaths (by decide +kernel) (by decide +kernel)
  refine ⟨hne, s.package, hp, hfits, fun paths t' hruns => ?_⟩
  obtain ⟨m, hm, -⟩ := hs.exists_assembly (f := standalone.head (by decide)) (List.head_mem _)
  have havoided := (hs.avoidedBy_of_runs hne hruns m hm).1
  rw [List.mem_singleton.mp (hpaths m hm)] at havoided
  exact havoided (by decide +kernel)

end Package

end SchemaBindings
