import SchemaBindings.Package
import SchemaBindings.Proofs.Code.Finished
import SchemaBindings.Proofs.Code.Paths
import SchemaBindings.Proofs.Imports.Resolution
import SchemaBindings.Proofs.Schema.Containment

/-!
The stages on the way to a package, and that a package is made exactly if each of them succeeds.
Cycles of imports never get in the way.
-/

namespace SchemaBindings

open Code

/-- What the module of a schema file is generated against. -/
def Generator.context (g : Generator) (symbols : SymbolTable) (f : SchemaFile) :
    Binding.Context where
  module := f.module
  symbols := symbols
  types := g.types
  library := g.library
  root := g.root
  asyncPrefix := g.settings.asyncPrefix
  unimplemented := g.settings.unimplemented

namespace Package

/-- What is made on the way to a package. -/
structure Stages where
  symbols : SymbolTable
  drafts : List Draft
  resolution : Imports.Resolution
  index : Index
  finished : List GeneratedModule
  indexFiles : List GeneratedModule

namespace Stages

/-- The modules that hold nothing but child modules. -/
def bare (s : Stages) : Index :=
  s.index.filter fun (parent, _) => !(s.drafts.map (·.module)).contains parent

/-- The package that is made in the end. -/
def package (s : Stages) : Package where
  modules := sortedByPath (s.finished ++ s.indexFiles)
  stubbed := s.drafts.flatMap (·.notes.stubbed)
  demoted := s.resolution.demoted

theorem package_modules_perm (s : Stages) :
    s.package.modules.Perm (s.finished ++ s.indexFiles) :=
  List.mergeSort_perm _ _

theorem mem_package_modules {s : Stages} {m : GeneratedModule} :
    m ∈ s.package.modules ↔ m ∈ s.finished ∨ m ∈ s.indexFiles :=
  s.package_modules_perm.mem_iff.trans List.mem_append

/-- Every stage succeeds with what the ones before it made. -/
structure Succeed (g : Generator) (files : List SchemaFile) (s : Stages) : Prop where
  symbols : SymbolTable.build files g.settings.asyncPrefix = .ok s.symbols
  drafts : List.Forall₂ (fun f d => draft g s.symbols f = .ok d) files s.drafts
  resolution : Imports.resolve (importSets s.drafts) = .ok s.resolution
  index : (if g.settings.moduleIndex then indexOf s.symbols (s.drafts.map (·.module))
    else .ok []) = .ok s.index
  finished : List.Forall₂ (fun d m => finish g.root s.resolution s.index d = .ok m) s.drafts
    s.finished
  indexFiles : List.Forall₂ (fun e m => indexFile e.1 e.2 = .ok m) s.bare s.indexFiles

end Stages

variable {g : Generator} {files : List SchemaFile} {p : Package}

theorem ite_bind {c : Prop} [Decidable c] {α β : Type} (x y : Except Failure α)
    (f : α → Except Failure β) :
    (if c then x >>= f else y >>= f) = (if c then x else y) >>= f := by
  split <;> rfl

theorem generate_ok :
    generate g files = .ok p ↔ ∃ s : Stages, s.Succeed g files ∧ s.package = p := by
  unfold generate
  constructor
  · intro h
    obtain ⟨symbols, hs, h⟩ := bind_ok.mp h
    obtain ⟨drafts, hd, h⟩ := bind_ok.mp h
    obtain ⟨resolution, hr, h⟩ := bind_ok.mp h
    dsimp only at h
    rw [ite_bind] at h
    obtain ⟨index, hi, h⟩ := bind_ok.mp h
    obtain ⟨finished, hf, h⟩ := bind_ok.mp h
    obtain ⟨indexFiles, hb, h⟩ := bind_ok.mp h
    cases h
    exact ⟨⟨symbols, drafts, resolution, index, finished, indexFiles⟩,
      ⟨hs, mapM_ok.mp hd, hr, hi, mapM_ok.mp hf, mapM_ok.mp hb⟩, rfl⟩
  · rintro ⟨s, h, rfl⟩
    refine bind_ok.mpr ⟨_, h.symbols, bind_ok.mpr ⟨_, mapM_ok.mpr h.drafts, ?_⟩⟩
    refine bind_ok.mpr ⟨_, h.resolution, ?_⟩
    dsimp only
    rw [ite_bind]
    refine bind_ok.mpr ⟨_, h.index, ?_⟩
    exact bind_ok.mpr ⟨_, mapM_ok.mpr h.finished, bind_ok.mpr ⟨_, mapM_ok.mpr h.indexFiles, rfl⟩⟩

/-! ## Modules of schema files -/

theorem draft_ok {symbols : SymbolTable} {f : SchemaFile} {d : Draft}
    (h : draft g symbols f = .ok d) : d.module = f.module ∧ d.source = f.path ∧
      ∃ raw items, (Binding.moduleFile (g.context symbols f) f).run {} = .ok (raw, d.notes) ∧
        itemsReadBack? raw.items = some items ∧ d.file = { raw with items } := by
  obtain ⟨⟨raw, notes⟩, hraw, h⟩ := bind_ok.mp h
  obtain ⟨file, hfile, h⟩ := bind_ok.mp h
  cases h
  refine ⟨rfl, rfl, raw, ?_⟩
  unfold File.checked at hfile
  split at hfile
  · next items hitems =>
    cases hfile
    exact ⟨items, hraw, hitems, rfl⟩
  · cases hfile

/-- The declarations of child modules. -/
theorem childItems_ok {children : List String} {items : List Item}
    (h : childItems children = .ok items) : ∃ idents : List Ident,
      idents.map (·.text) = children ∧ items = idents.map Item.moduleFile := by
  have hall := mapM_ok.mp h
  clear h
  induction hall with
  | nil => exact ⟨[], rfl, rfl⟩
  | cons hi _ ih =>
    obtain ⟨ident, hident, rfl⟩ := map_ok.mp hi
    obtain ⟨idents, rfl, rfl⟩ := ih
    exact ⟨ident :: idents, by rw [List.map_cons, Ident.text_of_ofName hident], rfl⟩

/-- Declarations of modules in files of their own are left as they are. -/
theorem relocate_childItems {children : List String} {items : List Item} {r : Relocation}
    (h : childItems children = .ok items) : items.map (·.relocate r) = items := by
  obtain ⟨idents, -, rfl⟩ := childItems_ok h
  simp [Item.relocate]

/-- The imports of all modules are those of their drafts. -/
theorem importSets_perm {drafts : List Draft} (hkeys : (drafts.map (·.module)).Nodup) :
    (importSets drafts).Perm (drafts.map fun d => (d.module, d.notes.imports)) := by
  have hall := @foldl_insertSorted_perm _ _ _ ModuleId.before []
    (drafts.map fun d => (d.module, d.notes.imports))
    (by simpa [Function.comp_def] using hkeys)
  rwa [List.foldl_map] at hall

theorem pairwise_importSets (drafts : List Draft) :
    ((importSets drafts).map (·.1)).Pairwise fun a b => a.before b = true := by
  have hall := @pairwise_foldl_insertSorted _ _ _ ModuleId.before [] _
    (drafts.map fun d => (d.module, d.notes.imports)) .nil
  rwa [List.foldl_map] at hall

theorem nodup_importSets {drafts : List Draft} (hkeys : (drafts.map (·.module)).Nodup) :
    ((importSets drafts).map (·.1)).Nodup := by
  rw [((importSets_perm hkeys).map _).nodup_iff]
  simpa [Function.comp_def] using hkeys

/-- The imports of drafts stand in the order of their modules. -/
theorem importSets_perm_eq {drafts drafts' : List Draft} (hp : drafts.Perm drafts')
    (hkeys : (drafts.map (·.module)).Nodup) : importSets drafts = importSets drafts' := by
  have hkeys' : (drafts'.map (·.module)).Nodup := (hp.map _).nodup_iff.mp hkeys
  refine eq_of_perm_of_sorted ?_ (pairwise_importSets drafts) (pairwise_importSets drafts')
  exact (importSets_perm hkeys).trans ((hp.map _).trans (importSets_perm hkeys').symm)

/-- Drafts are made for the modules of the files. -/
theorem modules_of_drafts {symbols : SymbolTable} {drafts : List Draft}
    (h : List.Forall₂ (fun f d => draft g symbols f = .ok d) files drafts) :
    drafts.map (·.module) = files.map (·.module) := by
  induction h with
  | nil => rfl
  | cons hd _ ih => rw [List.map_cons, List.map_cons, ih, (draft_ok hd).1]

theorem nodup_draft_modules {symbols : SymbolTable} {drafts : List Draft}
    (hs : SymbolTable.build files g.settings.asyncPrefix = .ok symbols)
    (hd : List.Forall₂ (fun f d => draft g symbols f = .ok d) files drafts) :
    (drafts.map (·.module)).Nodup :=
  modules_of_drafts hd ▸ (SymbolTable.build_ok hs).1.modules

theorem lookup_of_mem_drafts {drafts : List Draft} {resolution : Imports.Resolution}
    (hkeys : (drafts.map (·.module)).Nodup)
    (hr : Imports.resolve (importSets drafts) = .ok resolution) {d : Draft} (hmem : d ∈ drafts) :
    resolution.modules.lookup d.module =
      some (Imports.split resolution.demoted d.module d.notes.imports) :=
  Imports.lookup_resolve (nodup_importSets hkeys) hr
    ((importSets_perm hkeys).mem_iff.mpr (List.mem_map_of_mem hmem))

/-- The imports of a draft are split along the edges that are deferred. -/
theorem lookup_resolution {symbols : SymbolTable} {drafts : List Draft}
    {resolution : Imports.Resolution}
    (hs : SymbolTable.build files g.settings.asyncPrefix = .ok symbols)
    (hd : List.Forall₂ (fun f d => draft g symbols f = .ok d) files drafts)
    (hr : Imports.resolve (importSets drafts) = .ok resolution) {d : Draft} (hmem : d ∈ drafts) :
    resolution.modules.lookup d.module =
      some (Imports.split resolution.demoted d.module d.notes.imports) :=
  lookup_of_mem_drafts (nodup_draft_modules hs hd) hr hmem

/-- The package that is made of the finished modules and the index. -/
theorem generate_of_stages {symbols : SymbolTable} {drafts : List Draft} {index : Index}
    {finished indexFiles : List GeneratedModule}
    (hs : SymbolTable.build files g.settings.asyncPrefix = .ok symbols)
    (hd : files.mapM (draft g symbols) = .ok drafts)
    (hi : (if g.settings.moduleIndex then indexOf symbols (drafts.map (·.module)) else .ok []) =
      .ok index)
    (hf : let sets := importSets drafts
      let demoted := Imports.sortedEdges (Imports.backEdges (Imports.graphOf sets))
      drafts.mapM (finish g.root ⟨sets.map fun (m, set) =>
        (m, Imports.split demoted m set), demoted⟩ index) = .ok finished)
    (hb : (index.filter fun (parent, _) => !(drafts.map (·.module)).contains parent).mapM
      (fun e => indexFile e.1 e.2) = .ok indexFiles) :
    generate g files = .ok {
      modules := sortedByPath (finished ++ indexFiles)
      stubbed := drafts.flatMap (·.notes.stubbed)
      demoted :=
        Imports.sortedEdges (Imports.backEdges (Imports.graphOf (importSets drafts))) } := by
  have hdrafts := mapM_ok.mp hd
  have hr := Imports.resolve_eq_ok (nodup_importSets (nodup_draft_modules hs hdrafts))
  have hstages : Stages.Succeed g files ⟨symbols, drafts, _, index, finished, indexFiles⟩ :=
    ⟨hs, hdrafts, hr, hi, mapM_ok.mp hf, mapM_ok.mp hb⟩
  exact generate_ok.mpr ⟨_, hstages, rfl⟩

/-- Cycles of imports never get in the way: a package is generated as soon as the symbols, the
drafts, the index and the finished modules are. -/
theorem exists_generate_iff :
    (∃ p, generate g files = .ok p) ↔
      ∃ symbols, SymbolTable.build files g.settings.asyncPrefix = .ok symbols ∧
      ∃ drafts, files.mapM (draft g symbols) = .ok drafts ∧
      ∃ index, (if g.settings.moduleIndex then indexOf symbols (drafts.map (·.module))
        else .ok []) = .ok index ∧
      let sets := importSets drafts
      let demoted := Imports.sortedEdges (Imports.backEdges (Imports.graphOf sets))
      (∃ finished, drafts.mapM (finish g.root ⟨sets.map fun (m, set) =>
        (m, Imports.split demoted m set), demoted⟩ index) = .ok finished) ∧
      ∃ indexFiles, (index.filter fun (parent, _) =>
        !(drafts.map (·.module)).contains parent).mapM (fun e => indexFile e.1 e.2) =
          .ok indexFiles := by
  constructor
  · rintro ⟨p, h⟩
    obtain ⟨s, h, -⟩ := generate_ok.mp h
    refine ⟨s.symbols, h.symbols, s.drafts, mapM_ok.mpr h.drafts, s.index, h.index,
      ⟨s.finished, ?_⟩, s.indexFiles, mapM_ok.mpr h.indexFiles⟩
    have hr := h.resolution
    rw [Imports.resolve_eq_ok (nodup_importSets (nodup_draft_modules h.symbols h.drafts))] at hr
    rw [Except.ok.inj hr]
    exact mapM_ok.mpr h.finished
  · rintro ⟨symbols, hs, drafts, hd, index, hi, ⟨finished, hf⟩, indexFiles, hb⟩
    exact ⟨_, generate_of_stages hs hd hi hf hb⟩

/-- An index that is refused is all that is wrong once the drafts are made. -/
theorem generate_of_index_error {symbols : SymbolTable} {drafts : List Draft} {e : Failure}
    (hs : SymbolTable.build files g.settings.asyncPrefix = .ok symbols)
    (hd : files.mapM (draft g symbols) = .ok drafts)
    (hi : (if g.settings.moduleIndex then indexOf symbols (drafts.map (·.module)) else .ok []) =
      .error e) : generate g files = .error e := by
  have hr := Imports.resolve_eq_ok (nodup_importSets (nodup_draft_modules hs (mapM_ok.mp hd)))
  rw [generate, bind_of_ok hs, bind_of_ok hd, bind_of_ok hr]
  dsimp only
  rw [ite_bind, bind_of_error hi]

/-- A generator that keeps to the default settings, for a library with everything at its top. -/
def plain : Generator where
  settings := {}
  types := ⟨[], []⟩
  root := .ofNames false ["crate"]
  library := {
    messageDerive := .ofNames true ["runtime", "Message"]
    enumDerive := .ofNames true ["runtime", "Enumeration"]
    fieldAttribute := ⟨"message_field"⟩
    result := .ofNames true ["runtime", "Result"]
    metadata := .path (.ofNames true ["runtime", "Metadata"])
    blockingStub := .path (.ofNames true ["runtime", "Stub"])
    suspendingStub := .path (.ofNames true ["runtime", "AsyncStub"])
    toWire := .ofNames true ["runtime", "to_wire"]
    fromWire := .ofNames true ["runtime", "from_wire"]
    trackingIdBlocking := .ofNames true ["runtime", "tracking_id"]
    trackingIdSuspending := .ofNames true ["runtime", "tracking_id_async"]
    logRequest := .ofNames true ["runtime", "log_request"]
    stream := .ofNames true ["runtime", "Stream"]
    blockingUnary := .ofNames true ["runtime", "unary"]
    blockingStream := .ofNames true ["runtime", "stream"]
    suspendingUnary := .ofNames true ["runtime", "unary_async"]
    suspendingStream := .ofNames true ["runtime", "stream_async"] }

/-- Three files, two of which import from each other, with messages in a circle. Modules `a::b` are
made both for what is nested in `p.B` and for the second file. -/
def crossing : List SchemaFile :=
  [{ path := "a.proto", package := "p"
     messages := [
       { name := "B", messages := [{ name := "X" }] },
       { name := "Loop", fields := [{ name := "next", type := .named "c.X", number := 1 }] }] },
   { path := "a/b.proto", package := "q", messages := [{ name := "X" }] },
   { path := "c.proto", package := "c"
     messages := [
       { name := "X", fields := [
         { name := "inner", type := .named "p.B.X", number := 1 },
         { name := "outer", type := .named "q.X", number := 2 },
         { name := "back", type := .named "p.Loop", number := 3 }] },
       { name := "B", messages := [
         { name := "Y", fields := [{ name := "up", type := .named "c.X", number := 1 }] }] }]
     services := [{ name := "S", fullName := "c.S", methods := [
       { name := "get", inputType := "c.X", outputType := "p.Loop" }] }] }]

theorem distinctNames_crossing : DistinctNames crossing := by
  unfold DistinctNames
  decide +kernel

def crossingSymbols : SymbolTable :=
  (SymbolTable.build crossing "Async").toOption.getD {}

def crossingDrafts : List Draft :=
  (crossing.mapM (draft plain crossingSymbols)).toOption.getD []

def crossingGraph : Imports.Graph :=
  [(⟨["a"]⟩, [⟨["c"]⟩]), (⟨["a", "b"]⟩, []), (⟨["c"]⟩, [⟨["a"]⟩])]

theorem backEdges_crossingGraph : Imports.backEdges crossingGraph = [(⟨["c"]⟩, ⟨["a"]⟩)] := by
  have ha : crossingGraph.targets ⟨["a"]⟩ = [⟨["c"]⟩] := by decide
  have hb : crossingGraph.targets ⟨["a", "b"]⟩ = [] := by decide
  have hc : crossingGraph.targets ⟨["c"]⟩ = [⟨["a"]⟩] := by decide
  have hkeys : crossingGraph.map (·.1) = [⟨["a"]⟩, ⟨["a", "b"]⟩, ⟨["c"]⟩] := rfl
  have hlength : crossingGraph.length = 3 := rfl
  simp [Imports.backEdges, Imports.visit, Imports.visitAll, ha, hb, hc, hkeys, hlength]

theorem build_crossing :
    SymbolTable.build crossing plain.settings.asyncPrefix = .ok crossingSymbols :=
  ok_getD {} (by decide +kernel)

theorem drafts_crossing : crossing.mapM (draft plain crossingSymbols) = .ok crossingDrafts :=
  ok_getD [] (by decide +kernel)

theorem exists_generate_crossing : ∃ p, generate plain crossing = .ok p := by
  have hg : Imports.graphOf (importSets crossingDrafts) = crossingGraph := by decide +kernel
  refine exists_generate_iff.mpr ⟨_, build_crossing, _, drafts_crossing, [], rfl, ?_, [], rfl⟩
  dsimp only
  rw [hg, backEdges_crossingGraph, Imports.sortedEdges, List.mergeSort_singleton]
  exact ⟨_, ok_getD [] (by decide +kernel)⟩

theorem finish_ok {s : Stages} {d : Draft} {m : GeneratedModule}
    (h : finish g.root s.resolution s.index d = .ok m) :
    m.module = d.module ∧ m.source = some d.source ∧ m.path = d.module.outputPath ∧
      ∃ relocation uses children,
        Imports.relocation g.root ((s.resolution.modules.lookup d.module).getD {}).deferred =
          .ok relocation ∧
        ((s.resolution.modules.lookup d.module).getD {}).eager.mapM
          (fun e => Imports.useItem g.root e.1 e.2) = .ok uses ∧
        childItems ((s.index.lookup d.module).getD []) = .ok children ∧
        m.file.items = uses ++ (children ++ relocateItems relocation d.file.items) := by
  obtain ⟨children, hc, h⟩ := bind_ok.mp h
  obtain ⟨injected, hi, h⟩ := bind_ok.mp h
  obtain ⟨printed, hp, h⟩ := bind_ok.mp h
  cases h
  refine ⟨rfl, rfl, rfl, ?_⟩
  have hprinted : printed = injected := by
    unfold File.printable at hp
    split at hp <;> cases hp
    rfl
  obtain ⟨relocation, hr, hi⟩ := bind_ok.mp hi
  obtain ⟨uses, hu, hi⟩ := bind_ok.mp hi
  cases hi
  refine ⟨relocation, uses, children, hr, hu, hc, ?_⟩
  rw [hprinted]
  simp only [File.relocate, relocateItems_eq, List.map_append, relocate_childItems hc]

/-- An index holds the declarations of its child modules and nothing else. -/
theorem indexFile_ok {parent : ModuleId} {children : List String} {m : GeneratedModule}
    (h : indexFile parent children = .ok m) : m.module = parent ∧ m.source = none ∧
      m.path = parent.segments ++ ["mod.rs"] ∧ childItems children = .ok m.file.items := by
  obtain ⟨items, hitems, h⟩ := bind_ok.mp h
  obtain ⟨file, hfile, h⟩ := bind_ok.mp h
  cases h
  refine ⟨rfl, rfl, rfl, ?_⟩
  unfold File.checked at hfile
  split at hfile
  · next read hread =>
    cases hfile
    obtain ⟨idents, -, rfl⟩ := childItems_ok hitems
    exact moduleFiles_of_readBack? hread ▸ hitems
  · cases hfile

end Package

end SchemaBindings
