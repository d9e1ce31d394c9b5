import SchemaBindings.Proofs.Imports.Components
import SchemaBindings.Proofs.Package.Enlargement

/-!
Schemas that have nothing to do with each other: generated together they give what each of them
gives alone. No import leads from the modules of the one to those of the other, so neither has a say
in which imports of the other are deferred.
-/

namespace SchemaBindings

open Code Imports

namespace Package

/-- Two schemas without a module or a full name in common. Neither defines a name whose type is
mapped. -/
structure Unrelated (g : Generator) (files others : List SchemaFile) : Prop where
  modules : (files.map (·.module)).Disjoint (others.map (·.module))
  names : DistinctNames (files ++ others)
  unmapped : ∀ d ∈ definitions (files ++ others), g.types.extern? d.1 = none

variable {g : Generator} {files others : List SchemaFile} {s s' : Stages}

/-- A module is that of one of the files. -/
def isModuleOf (files : List SchemaFile) (m : ModuleId) : Bool :=
  (files.map (·.module)).contains m

theorem isModuleOf_iff {m : ModuleId} :
    isModuleOf files m = true ↔ m ∈ files.map (·.module) := by
  rw [isModuleOf, List.contains_iff_mem]

namespace Stages.Succeed

theorem mem_modules (h : s.Succeed g files) {d : Draft} (hd : d ∈ s.drafts) :
    d.module ∈ files.map (·.module) :=
  modules_of_drafts h.drafts ▸ List.mem_map_of_mem hd

/-- All imports come from modules of the schema. -/
theorem mem_sources (h : s.Succeed g files) {d : Draft} (hd : d ∈ s.drafts) {name : String}
    {source : ModuleId} (hi : (name, source) ∈ d.notes.imports.entries) :
    source ∈ files.map (·.module) := by
  obtain ⟨f, -, hdraft⟩ := exists_mem_left h.drafts hd
  obtain ⟨-, -, raw, -, hraw, -⟩ := draft_ok hdraft
  obtain ⟨hsound, -⟩ := Binding.moduleFile_ensures (g.context s.symbols f) f {} raw d.notes hraw
    (.empty _)
  obtain ⟨fullName, symbol, hsymbol, rfl, -⟩ := (hsound.importable name source hi).definition
  obtain ⟨f', hf', hdefines⟩ := mem_definitions.mp (h.describes.mem_definitions hsymbol)
  exact List.mem_map.mpr ⟨f', hf', hdefines.module.symm⟩

theorem demoted_eq (h : s.Succeed g files) :
    s.package.demoted = sortedEdges (backEdges (graphOf (importSets s.drafts))) := by
  have hr := h.resolution
  rw [resolve_eq_ok (nodup_importSets (nodup_draft_modules h.symbols h.drafts))] at hr
  rw [package, ← Except.ok.inj hr]

end Stages.Succeed

/-! ## Imports -/

/-- The drafts and their imports are about modules of the files only. -/
structure Confined (files : List SchemaFile) (drafts : List Draft) : Prop where
  modules : ∀ d ∈ drafts, d.module ∈ files.map (·.module)
  sources : ∀ d ∈ drafts, ∀ name source, (name, source) ∈ d.notes.imports.entries →
    source ∈ files.map (·.module)

theorem Stages.Succeed.confined (h : s.Succeed g files) : Confined files s.drafts where
  modules _ := h.mem_modules
  sources _ hd _ _ := h.mem_sources hd

namespace Confined

variable {drafts more : List Draft} {m source : ModuleId}

/-- No import leads from the modules of some files to those of others. -/
theorem importsFrom_cases (h : Confined files drafts) (h' : Confined others more)
    (hkeys : ((drafts ++ more).map (·.module)).Nodup)
    (hi : ImportsFrom (importSets (drafts ++ more)) m source) :
    (m ∈ files.map (·.module) ∧ source ∈ files.map (·.module)) ∨
      m ∈ others.map (·.module) ∧ source ∈ others.map (·.module) := by
  obtain ⟨⟨set, hset, name, hname⟩, -⟩ := hi
  obtain ⟨d, hd, he⟩ := List.mem_map.mp ((importSets_perm hkeys).mem_iff.mp hset)
  cases he
  rcases List.mem_append.mp hd with hd | hd
  · exact .inl ⟨h.modules d hd, h.sources d hd name source hname⟩
  · exact .inr ⟨h'.modules d hd, h'.sources d hd name source hname⟩

variable (h : Confined files drafts) (h' : Confined others more)
  (hdisjoint : (files.map (·.module)).Disjoint (others.map (·.module)))
  (hkeys : ((drafts ++ more).map (·.module)).Nodup)

include h h' hdisjoint hkeys

theorem importSets_filter :
    (importSets (drafts ++ more)).filter (isModuleOf files ·.1) = importSets drafts := by
  have hown : (drafts.map (·.module)).Nodup := hkeys.sublist (by simp)
  have hdrafts : (drafts ++ more).filter (isModuleOf files ·.module) = drafts := by
    rw [List.filter_append, List.filter_eq_self.mpr, List.filter_eq_nil_iff.mpr, List.append_nil]
    · exact fun d hd hm => hdisjoint (isModuleOf_iff.mp hm) (h'.modules d hd)
    · exact fun d hd => isModuleOf_iff.mpr (h.modules d hd)
  have hentries : ((drafts ++ more).map fun d => (d.module, d.notes.imports)).filter
      (isModuleOf files ·.1) = drafts.map fun d => (d.module, d.notes.imports) := by
    rw [List.filter_map]
    exact congrArg (List.map _) hdrafts
  refine eq_of_perm_of_sorted ?_ ?_ (pairwise_importSets drafts)
  · exact ((importSets_perm hkeys).filter _).trans (hentries ▸ (importSets_perm hown).symm)
  · exact (pairwise_importSets (drafts ++ more)).sublist (List.filter_sublist.map _)

/-- Which edges between modules of some files lead back does not depend on the others. -/
theorem backEdges_filter :
    (backEdges (graphOf (importSets (drafts ++ more)))).filter (isModuleOf files ·.1) =
      backEdges (graphOf (importSets drafts)) := by
  have hsame : ∀ m source, ImportsFrom (importSets (drafts ++ more)) m source →
      isModuleOf files source = isModuleOf files m := by
    intro m source hi
    rw [Bool.eq_iff_iff, isModuleOf_iff, isModuleOf_iff]
    rcases h.importsFrom_cases h' hkeys hi with ⟨hm, hs⟩ | ⟨hm, hs⟩
    · exact iff_of_true hs hm
    · exact iff_of_false (fun hf => hdisjoint hf hs) fun hf => hdisjoint hf hm
  rw [backEdges_component (component_graphOf (nodup_importSets hkeys) hsame),
    importSets_filter h h' hdisjoint hkeys]

/-- The imports of a module are resolved as they are without the other files. -/
theorem lookup_eq {r r' : Resolution} (hr : resolve (importSets drafts) = .ok r)
    (hr' : resolve (importSets (drafts ++ more)) = .ok r') {d : Draft} (hd : d ∈ drafts) :
    r'.modules.lookup d.module = r.modules.lookup d.module := by
  have hown : (drafts.map (·.module)).Nodup := hkeys.sublist (by simp)
  rw [lookup_of_mem_drafts hkeys hr' (List.mem_append_left _ hd), lookup_of_mem_drafts hown hr hd]
  refine congrArg some (split_congr fun source => ?_)
  rw [mem_demoted (nodup_importSets hkeys) hr', mem_demoted (nodup_importSets hown) hr,
    ← backEdges_filter h h' hdisjoint hkeys, List.mem_filter]
  exact (and_iff_left (isModuleOf_iff.mpr (h.modules d hd))).symm

/-- The edges that lead back are those of the files and those of the others. -/
theorem backEdges_perm : (backEdges (graphOf (importSets (drafts ++ more)))).Perm
    (backEdges (graphOf (importSets drafts)) ++ backEdges (graphOf (importSets more))) := by
  have hswap : (drafts ++ more).Perm (more ++ drafts) := List.perm_append_comm
  have hkeys' : ((more ++ drafts).map (·.module)).Nodup := (hswap.map _).nodup_iff.mp hkeys
  have hothers := backEdges_filter h' h hdisjoint.symm hkeys'
  rw [← importSets_perm_eq hswap hkeys] at hothers
  have hrest : (backEdges (graphOf (importSets (drafts ++ more)))).filter
      (fun e => !isModuleOf files e.1) = backEdges (graphOf (importSets more)) := by
    rw [← hothers]
    refine List.filter_congr fun e he => ?_
    have hi := (mem_targets_graphOf (nodup_importSets hkeys)).mp (reach_of_mem_backEdges he).1
    rw [Bool.eq_iff_iff, Bool.not_eq_true', Bool.eq_false_iff, ne_eq, isModuleOf_iff,
      isModuleOf_iff]
    rcases h.importsFrom_cases h' hkeys hi with ⟨hm, -⟩ | ⟨hm, -⟩
    · exact iff_of_false (not_not_intro hm) fun ho => hdisjoint hm ho
    · exact iff_of_true (fun hf => hdisjoint hf hm) hm
  rw [← backEdges_filter h h' hdisjoint hkeys, ← hrest]
  exact (List.filter_append_perm _ _).symm

end Confined

/-! ## Packages -/

namespace Unrelated

variable (hu : Unrelated g files others) (h : s.Succeed g files) (h' : s'.Succeed g others)
include hu

theorem distinctNames : DistinctNames files ∧ DistinctNames others := by
  have hnames := hu.names
  rw [DistinctNames, definitions, List.flatMap_append, List.map_append] at hnames
  exact ⟨hnames.of_append_left, hnames.of_append_right⟩

include h h'

/-- The files of both schemas have a table. -/
theorem exists_build :
    ∃ t, SymbolTable.build (files ++ others) g.settings.asyncPrefix = .ok t := by
  refine SymbolTable.exists_build_iff.mpr ⟨?_, fun f hf => ?_⟩
  · rw [List.map_append]
    exact h.describes.modules.append h'.describes.modules hu.modules
  · exact (List.mem_append.mp hf).elim (h.describes.claimed f) (h'.describes.claimed f)

theorem drafts {t : SymbolTable}
    (ht : SymbolTable.build (files ++ others) g.settings.asyncPrefix = .ok t) :
    List.Forall₂ (fun f d => draft g t f = .ok d) (files ++ others) (s.drafts ++ s'.drafts) := by
  have hmapped {some : List SchemaFile} : ∀ d ∈ definitions (files ++ others),
      (g.types.extern? d.1).isSome → d ∈ definitions some := by
    intro d hd hm
    rw [hu.unmapped d hd] at hm
    cases hm
  have hleft := h.enlarges hu.distinctNames.1 ht hu.names (List.subset_append_left ..) hmapped
  have hright := h'.enlarges hu.distinctNames.2 ht hu.names (List.subset_append_right ..) hmapped
  refine List.rel_append ?_ ?_
  · exact forall₂_imp_of_mem h.drafts fun f hf d hd => hleft.draft_eq hf hd
  · exact forall₂_imp_of_mem h'.drafts fun f hf d hd => hright.draft_eq hf hd

/-- Together every stage succeeds as it does for each schema alone. -/
theorem succeed (hindex : g.settings.moduleIndex = false) : ∃ t r,
    Stages.Succeed g (files ++ others)
      ⟨t, s.drafts ++ s'.drafts, r, [], s.finished ++ s'.finished, []⟩ := by
  obtain ⟨t, ht⟩ := hu.exists_build h h'
  have hdrafts := hu.drafts h h' ht
  have hkeys := nodup_draft_modules ht hdrafts
  obtain ⟨r, hr⟩ : ∃ r, resolve (importSets (s.drafts ++ s'.drafts)) = .ok r :=
    ⟨_, resolve_eq_ok (nodup_importSets hkeys)⟩
  have hswap : (s.drafts ++ s'.drafts).Perm (s'.drafts ++ s.drafts) := List.perm_append_comm
  have hkeys' : ((s'.drafts ++ s.drafts).map (·.module)).Nodup :=
    (hswap.map _).nodup_iff.mp hkeys
  have hr' := importSets_perm_eq hswap hkeys ▸ hr
  refine ⟨t, r, ht, hdrafts, hr, by rw [hindex, if_neg Bool.false_ne_true], ?_, .nil⟩
  refine List.rel_append ?_ ?_
  · refine forall₂_imp_of_mem h.finished fun d hd m hm => ?_
    rw [← hm]
    exact finish_congr (h.confined.lookup_eq h'.confined hu.modules hkeys h.resolution hr hd)
      (by rw [(h.indexFiles_eq_nil hindex).1])
  · refine forall₂_imp_of_mem h'.finished fun d hd m hm => ?_
    rw [← hm]
    exact finish_congr
      (h'.confined.lookup_eq h.confined hu.modules.symm hkeys' h'.resolution hr' hd)
      (by rw [(h'.indexFiles_eq_nil hindex).1])

end Unrelated

/-- Schemas that have nothing to do with each other can be generated together. The package has the
modules of both packages in the order of their paths, the imports that are deferred in either, in
ascending order, and the methods whose functions refuse to run, first those of the one and then
those of the other. -/
theorem generate_append {p p' : Package} (hindex : g.settings.moduleIndex = false)
    (hu : Unrelated g files others) (h : generate g files = .ok p)
    (h' : generate g others = .ok p') : ∃ q, generate g (files ++ others) = .ok q ∧
      q.modules.Perm (p.modules ++ p'.modules) ∧
      q.modules.Pairwise (fun m m' => m.path < m'.path) ∧
      q.demoted.Perm (p.demoted ++ p'.demoted) ∧
      q.demoted.Pairwise (fun e e' => edgeBefore e e' = true) ∧
      q.stubbed = p.stubbed ++ p'.stubbed := by
  obtain ⟨s, hs, rfl⟩ := generate_ok.mp h
  obtain ⟨s', hs', rfl⟩ := generate_ok.mp h'
  obtain ⟨t, r, hall⟩ := hu.succeed hs hs' hindex
  have hkeys := nodup_draft_modules hall.symbols hall.drafts
  have hedges := hs.confined.backEdges_perm hs'.confined hu.modules hkeys
  refine ⟨_, generate_ok.mpr ⟨_, hall, rfl⟩, ?_, hall.paths_ascending, ?_, ?_,
    List.flatMap_append⟩
  · exact (hall.modules_perm hindex).trans
      ((hs.modules_perm hindex).append (hs'.modules_perm hindex)).symm
  · have hsorted {edges : List Edge} : (sortedEdges edges).Perm edges := List.mergeSort_perm _ _
    rw [hs.demoted_eq, hs'.demoted_eq, hall.demoted_eq]
    exact hsorted.trans (hedges.trans (hsorted.append hsorted).symm)
  · rw [hall.demoted_eq]
    exact pairwise_sortedEdges (nodup_backEdges (nodup_targets_graphOf _))

/-- A file that shares nothing with those that import from each other. -/
def standalone : List SchemaFile :=
  [{ path := "d.proto", package := "d"
     messages := [
       { name := "D", fields := [{ name := "next", type := .named "d.D", number := 1 }] }]
     services := [{ name := "T", fullName := "d.T", methods := [
       { name := "put", inputType := "d.D", outputType := "d.D", clientStreaming := true }] }] }]

theorem unrelated_standalone : Unrelated plain crossing standalone where
  modules := List.disjoint_left.mpr (by decide +kernel)
  names := by
    unfold DistinctNames
    decide +kernel
  unmapped _ _ := rfl

def standaloneSymbols : SymbolTable :=
  (SymbolTable.build standalone "Async").toOption.getD {}

def standaloneDrafts : List Draft :=
  (standalone.mapM (draft plain standaloneSymbols)).toOption.getD []

theorem exists_generate_standalone : ∃ p, generate plain standalone = .ok p := by
  have hs : SymbolTable.build standalone plain.settings.asyncPrefix = .ok standaloneSymbols :=
    ok_getD {} (by decide +kernel)
  have hd : standalone.mapM (draft plain standaloneSymbols) = .ok standaloneDrafts :=
    ok_getD [] (by decide +kernel)
  have hg : graphOf (importSets standaloneDrafts) = [(⟨["d"]⟩, [])] := by decide +kernel
  refine exists_generate_iff.mpr ⟨_, hs, _, hd, [], rfl, ?_, [], rfl⟩
  dsimp only
  rw [hg, backEdges_single, sortedEdges, List.mergeSort_nil]
  exact ⟨_, ok_getD [] (by decide +kernel)⟩

theorem generate_append_standalone : plain.settings.moduleIndex = false ∧
    Unrelated plain crossing standalone ∧ ∃ p p', generate plain crossing = .ok p ∧
      generate plain standalone = .ok p' ∧ ∃ q, generate plain (crossing ++ standalone) = .ok q ∧
        q.modules.Perm (p.modules ++ p'.modules) ∧
        q.modules.Pairwise (fun m m' => m.path < m'.path) ∧
        q.demoted.Perm (p.demoted ++ p'.demoted) ∧
        q.demoted.Pairwise (fun e e' => edgeBefore e e' = true) ∧
        q.stubbed = p.stubbed ++ p'.stubbed := by
  obtain ⟨p, h⟩ := exists_generate_crossing
  obtain ⟨p', h'⟩ := exists_generate_standalone
  exact ⟨rfl, unrelated_standalone, p, p', h, h', generate_append rfl unrelated_standalone h h'⟩

end Package

end SchemaBindings
