import SchemaBindings.Run
import SchemaBindings.Proofs.Package.Failures
import SchemaBindings.Proofs.Package.Stopped
import SchemaBindings.Proofs.Schema.Tree

/-!
What runs leave of the files around them, above all if they do not succeed. Until the whole package
is there nothing is written, and from then on only what the files refuse can stop a run.
-/

namespace SchemaBindings

open LawfulFileSystem (text?)
open Package (Written StoppedAt)

namespace Generator

variable {σ : Type} [FileSystem (StateM σ)] [LawfulFileSystem σ] {s s' : σ} {g : Generator}
  {root output : String} {isDryRun : Bool}

theorem load_ends {r : Except Failure (List SchemaFile)} (h : Ends (load root) s r s') :
    text? s' = text? s ∧
      Yields Failure.OfLoading r fun files => ∀ f ∈ files, f.module.segments ≠ [] := by
  unfold load at h
  rcases h.of_bind with ⟨paths, t, hdiscover, h⟩ | ⟨e, hdiscover, rfl⟩ <;>
    obtain ⟨hkept, hyields⟩ := SchemaTree.discover_ends hdiscover
  · obtain ⟨hkept', hyields'⟩ := SchemaTree.load_ends h
    exact ⟨hkept'.trans hkept, hyields'⟩
  · exact ⟨hkept, .error (hyields.1 e rfl)⟩

/-- The package is there before anything is written, or the run fails in a way that has nothing to
do with writing. -/
theorem package_ends {r : Except Failure Package} (h : Ends (g.package root) s r s') :
    text? s' = text? s ∧
      Yields (∀ path, · ≠ .unwritable path) r fun p =>
        (p.modules.Pairwise fun m m' => m.path < m'.path) ∧
          ∀ directory, GeneratedModule.Apart directory p.modules := by
  unfold package at h
  rcases h.of_bind with ⟨files, t, hload, h⟩ | ⟨e, hload, rfl⟩ <;>
    obtain ⟨hkept, hyields⟩ := load_ends hload
  · obtain ⟨rfl, rfl⟩ := h.of_result
    refine ⟨hkept, fun e he path hpath => ?_, fun p hp => ⟨?_, ?_⟩⟩
    · rw [hpath] at he
      exact Package.generate_failure_ofGeneration he
    · obtain ⟨stages, hstages, rfl⟩ := Package.generate_ok.mp hp
      exact hstages.paths_ascending
    · exact Package.generate_apart (hyields.2 files rfl) hp
  · refine ⟨hkept, .error fun path hpath => ?_⟩
    rw [hpath] at hyields
    exact hyields.1 _ rfl

/-- What a run leaves of the files. A dry run and a run that fails before it writes change no text.
If writing is refused, there was a package, whose modules in the order of their paths have all been
written before the one that was refused; this one and everything else is as it was, save what stands
beside one of them with the temporary extension. A run that succeeds has written all modules. -/
theorem run_leaves {r : Except Failure (Summary × String)}
    (h : Ends (g.run root output isDryRun) s r s') :
    (isDryRun = true → text? s' = text? s) ∧
    (∀ e, r = .error e → (∀ path, e ≠ .unwritable path) → text? s' = text? s) ∧
    (∀ path, r = .error (.unwritable path) → isDryRun = false ∧
      ∃ p t before m after, Ends (g.package root) s (.ok p) t ∧
        (p.modules.Pairwise fun m m' => m.path < m'.path) ∧ p.modules = before ++ m :: after ∧
        StoppedAt output path before m s s') ∧
    ∀ answer, r = .ok answer → isDryRun = false →
      ∃ p t, Ends (g.package root) s (.ok p) t ∧ Written output p.modules s s' := by
  unfold run at h
  rcases h.of_bind with ⟨p, t, hpackage, h⟩ | ⟨e, hpackage, rfl⟩ <;>
    obtain ⟨hkept, hyields⟩ := package_ends hpackage
  · obtain ⟨hascending, hapart⟩ := hyields.2 p rfl
    cases isDryRun with
    | true =>
      rcases h.of_bind with ⟨files, t', hfiles, h⟩ | ⟨e, hfiles, rfl⟩
      · obtain ⟨-, rfl⟩ := hfiles.of_pure
        obtain ⟨rfl, rfl⟩ := h.of_pure
        refine ⟨fun _ => hkept, fun _ _ _ => hkept, fun path he => ?_, fun _ _ hdry => ?_⟩
        · cases he
        · cases hdry
      · cases hfiles.of_pure.1
    | false =>
      rcases h.of_bind with ⟨files, t', hfiles, h⟩ | ⟨e, hfiles, rfl⟩
      · obtain ⟨rfl, rfl⟩ := h.of_pure
        refine ⟨fun hdry => ?_, fun e he => ?_, fun path he => ?_, fun _ _ _ => ?_⟩
        · cases hdry
        · cases he
        · cases he
        · have hwritten := Package.mapM_writeModule (hapart output) hfiles
          exact ⟨p, t, hpackage, hwritten.of_text hkept⟩
      · obtain ⟨path, before, m, after, rfl, hmodules, hstopped⟩ :=
          Package.write_stopped (hapart output) hfiles
        refine ⟨fun hdry => ?_, fun e he hne => ?_, fun path' he => ?_, fun _ hr => ?_⟩
        · cases hdry
        · exact absurd (Except.error.inj he).symm (hne path)
        · cases he
          exact ⟨rfl, p, t, before, m, after, hpackage, hascending, hmodules,
            hstopped.of_text hkept⟩
        · cases hr
  · refine ⟨fun _ => hkept, fun _ _ _ => hkept, fun path he => ?_, fun _ hr => ?_⟩
    · exact absurd (Except.error.inj he) (hyields.1 e rfl path)
    · cases hr

/-! ### A directory in the way -/

section

open Package (plain draft finish importSets writeModule)

/-- Two schema files, and a directory where the second of their modules belongs. -/
def crowded : FileTree where
  nodes := [(["out"], .directory), (["out", "b.rs"], .directory), (["protos"], .directory),
    (["protos", "a.proto"], .file ""), (["protos", "b.proto"], .file "")]

def crowdedFiles : List SchemaFile :=
  [{ path := "a.proto", package := "" }, { path := "b.proto", package := "" }]

theorem load_crowded : Ends (load "protos") crowded (.ok crowdedFiles) crowded := by
  have hbelow : crowded.filesBelow? "protos" = some [["a.proto"], ["b.proto"]] := by decide +kernel
  have hschemas : [["a.proto"], ["b.proto"]].filter (SchemaTree.isSchema "protos") =
      [["a.proto"], ["b.proto"]] := by decide +kernel
  have hsorted : SchemaTree.sortedNames [["a.proto"], ["b.proto"]] = [["a.proto"], ["b.proto"]] :=
    List.mergeSort_of_pairwise (by decide)
  have hfound : (FileSystem.filesBelow "protos" : StateM FileTree _).run crowded =
      (some [["a.proto"], ["b.proto"]], crowded) := by
    rw [← hbelow]
    rfl
  have hdiscover : Ends (SchemaTree.discover "protos") crowded (.ok ["a.proto", "b.proto"])
      crowded := by
    refine .bind_action hfound ?_
    dsimp only
    rw [hschemas, hsorted]
    rfl
  have hsources : (SchemaTree.sources "protos" : StateM FileTree _).run crowded =
      ([("a.proto", ""), ("b.proto", "")], crowded) := by
    change @Eq (Proto.Sources × FileTree) _ _
    decide +kernel
  have hload : Proto.load [("a.proto", ""), ("b.proto", "")] ["a.proto", "b.proto"] =
      .ok crowdedFiles := by rfl
  refine hdiscover.bind (.bind_action hsources ?_)
  rw [hload]
  rfl

def crowdedSymbols : SymbolTable :=
  (SymbolTable.build crowdedFiles "Async").toOption.getD {}

def crowdedDrafts : List Package.Draft :=
  (crowdedFiles.mapM (draft plain crowdedSymbols)).toOption.getD []

def crowdedModules : List GeneratedModule :=
  (crowdedDrafts.mapM (finish plain.root ⟨(importSets crowdedDrafts).map fun (m, set) =>
    (m, Imports.split [] m set), []⟩ [])).toOption.getD []

theorem generate_crowded :
    ∃ p, Package.generate plain crowdedFiles = .ok p ∧ p.modules = crowdedModules := by
  have hs : SymbolTable.build crowdedFiles plain.settings.asyncPrefix = .ok crowdedSymbols :=
    ok_getD {} (by decide +kernel)
  have hd : crowdedFiles.mapM (draft plain crowdedSymbols) = .ok crowdedDrafts :=
    ok_getD [] (by decide +kernel)
  have hg : Imports.graphOf (importSets crowdedDrafts) = [(⟨["a"]⟩, []), (⟨["b"]⟩, [])] := by
    decide +kernel
  have ha : Imports.Graph.targets [(⟨["a"]⟩, []), (⟨["b"]⟩, [])] ⟨["a"]⟩ = [] := rfl
  have hb : Imports.Graph.targets [(⟨["a"]⟩, []), (⟨["b"]⟩, [])] ⟨["b"]⟩ = [] := rfl
  have hdemoted : Imports.sortedEdges
      (Imports.backEdges (Imports.graphOf (importSets crowdedDrafts))) = [] := by
    rw [hg]
    simp [Imports.sortedEdges, Imports.backEdges, Imports.visit, Imports.visitAll, ha, hb]
  have hf : let sets := importSets crowdedDrafts
      let demoted := Imports.sortedEdges (Imports.backEdges (Imports.graphOf sets))
      crowdedDrafts.mapM (finish plain.root ⟨sets.map fun (m, set) =>
        (m, Imports.split demoted m set), demoted⟩ []) = .ok crowdedModules := by
    dsimp only
    rw [hdemoted]
    exact ok_getD [] (by decide +kernel)
  have hsorted : Package.sortedByPath crowdedModules = crowdedModules :=
    List.mergeSort_of_pairwise (by decide +kernel)
  refine ⟨_, Package.generate_of_stages hs hd rfl hf rfl, ?_⟩
  dsimp only
  rw [List.reverse_nil, List.append_nil, hsorted]

theorem run_leaves_crowded : ∃ s',
    Ends (plain.run "protos" "out" false) crowded (.error (.unwritable "out/b.rs")) s' ∧
      ∃ p t before m after, Ends (plain.package "protos") crowded (.ok p) t ∧
        (p.modules.Pairwise fun m m' => m.path < m'.path) ∧ p.modules = before ++ m :: after ∧
        StoppedAt "out" "out/b.rs" before m crowded s' := by
  obtain ⟨p, hp, hmodules⟩ := generate_crowded
  have hpackage : Ends (plain.package "protos") crowded (.ok p) crowded := by
    refine load_crowded.bind ?_
    rw [hp]
    rfl
  have hrefused : ((crowdedModules.mapM (writeModule "out")).run.run crowded).1 =
      .error (.unwritable "out/b.rs") := by
    decide +kernel
  obtain ⟨s', hwrite⟩ : ∃ s',
      Ends (p.write "out") crowded (.error (.unwritable "out/b.rs")) s' := by
    refine ⟨_, Prod.ext ?_ rfl⟩
    rw [← hrefused, ← hmodules]
    rfl
  have hrun : Ends (plain.run "protos" "out" false) crowded (.error (.unwritable "out/b.rs")) s' :=
    hpackage.bind (hwrite.bind_error)
  exact ⟨s', hrun, ((run_leaves hrun).2.2.1 _ rfl).2⟩

end

end Generator

end SchemaBindings
