import SchemaBindings.Proofs.Package.Assembly
import SchemaBindings.Proofs.Package.Index

/-!
The names at the top of modules: those of imports, of child modules and of what the file defines.
They differ from each other unless a child module has the name of an import; a child module with the
name of something that its parent defines is refused.
-/

namespace SchemaBindings.Package

open Code

variable {g : Generator} {files : List SchemaFile} {s : Stages} {f : SchemaFile}
  {m : GeneratedModule}

/-- The index of a package holds the steps that lead to modules; no child has the name of something
at the top of its parent. -/
theorem Stages.Succeed.index_spec (h : s.Succeed g files) :
    SortedGroups ModuleId.before s.index ∧
      ∀ parent children, (parent, children) ∈ s.index → ∀ child ∈ children,
        s.symbols.isLocal parent child = false ∧
          StepToAny (s.drafts.map (·.module)) parent child := by
  have hindex := h.index
  split at hindex
  · have hadded := indexOf_ok hindex
    have hsorted := hadded.sorted ⟨.nil, nofun⟩
    refine ⟨hsorted, fun parent children he child hc => ?_⟩
    have hstep : StepToAny (s.drafts.map (·.module)) parent child :=
      ((hadded.inGroup parent child).mp (inGroup_of_mem hsorted.nodup_keys he hc)).resolve_left
        List.not_mem_nil
    exact ⟨hadded.free parent child hstep, hstep⟩
  · rw [← Except.ok.inj hindex]
    exact ⟨⟨.nil, nofun⟩, nofun⟩

/-- The children of a module in the index. -/
theorem Stages.Succeed.children_spec (h : s.Succeed g files) (parent : ModuleId) :
    ((s.index.lookup parent).getD []).Nodup ∧
      ∀ child ∈ (s.index.lookup parent).getD [], s.symbols.isLocal parent child = false := by
  obtain ⟨hsorted, hspec⟩ := h.index_spec
  cases hl : s.index.lookup parent with
  | none => simp
  | some children =>
    have hmem := mem_of_lookup hl
    exact ⟨(hsorted.names _ hmem).imp ne_of_lt, fun child hc => (hspec _ _ hmem child hc).1⟩

/-! ## Names by where they come from -/

theorem introducedNames_moduleFiles (idents : List Ident) :
    introducedNames (idents.map Item.moduleFile) = idents.map (·.text) ∧
      importedNames (idents.map Item.moduleFile) = [] ∧
        childNames (idents.map Item.moduleFile) = idents.map (·.text) := by
  induction idents with
  | nil => exact ⟨rfl, rfl, rfl⟩
  | cons ident rest ih =>
    obtain ⟨hintroduced, himported, hchildren⟩ := ih
    exact ⟨congrArg (ident.text :: ·) hintroduced, himported,
      congrArg (ident.text :: ·) hchildren⟩

theorem Assembly.introducedNames_uses (a : Assembly g s f m) :
    introducedNames a.uses =
        (Imports.split s.resolution.demoted f.module a.imports).eager.flatMap (·.2) ∧
      importedNames a.uses = introducedNames a.uses ∧ childNames a.uses = [] := by
  have hall := mapM_ok.mp a.usesOk
  generalize (Imports.split s.resolution.demoted f.module a.imports).eager = groups at hall
  generalize a.uses = uses at hall
  induction hall with
  | nil => exact ⟨rfl, rfl, rfl⟩
  | @cons group item groups uses hi _ ih =>
    obtain ⟨hnames, himported, hchildren⟩ := ih
    obtain ⟨path, idents, rfl, -, hidents⟩ := Imports.useItem_ok hi
    have htexts : idents.map (·.text) = group.2 := Ident.texts_of_mapM hidents
    refine ⟨?_, ?_, hchildren⟩
    · rw [List.flatMap_cons, ← hnames, ← htexts]
      simp [introducedNames, Item.importedNames, Item.definedName?]
    · rw [introducedNames, List.flatMap_cons, ← introducedNames, ← himported]
      simp [importedNames, Item.importedNames, Item.definedName?]

theorem importedNames_of_inline {items : List Item} (h : ∀ item ∈ items, item.isInline = true) :
    importedNames items = [] ∧ childNames items = [] := by
  rw [importedNames, childNames, List.flatMap_eq_nil_iff, List.filterMap_eq_nil_iff]
  refine ⟨fun item hm => ?_, fun item hm => ?_⟩ <;>
  · have hi := h item hm
    cases item <;> first | rfl | cases hi

/-- The child modules that the module of a file declares. -/
theorem Assembly.childNames_items (a : Assembly g s f m) :
    childNames m.file.items = (s.index.lookup f.module).getD [] := by
  obtain ⟨idents, htexts, hchildren⟩ := childItems_ok a.childrenOk
  rw [a.items, hchildren, childNames_append, childNames_append, a.introducedNames_uses.2.2,
    (introducedNames_moduleFiles idents).2.2, (importedNames_of_inline a.inline).2,
    List.append_nil, List.nil_append, htexts]

/-- The names at the top of the module of a file. -/
theorem Emission.names_items (e : Emission g s f m) :
    importedNames m.file.items =
        (Imports.split s.resolution.demoted f.module e.imports).eager.flatMap (·.2) ∧
      childNames m.file.items = (s.index.lookup f.module).getD [] ∧
      introducedNames m.file.items =
        importedNames m.file.items ++ (childNames m.file.items ++
          f.names g.settings.asyncPrefix) := by
  obtain ⟨hnames, himported, -⟩ := e.introducedNames_uses
  obtain ⟨idents, htexts, hchildren⟩ := childItems_ok e.childrenOk
  obtain ⟨hci, hcn, -⟩ := introducedNames_moduleFiles idents
  have hbody : definedNames e.body = f.names g.settings.asyncPrefix := by
    rw [(reshapes_finished e.relocation).definedNames_eq e.finished]
    exact e.mirrored.names
  have hi : importedNames m.file.items = introducedNames e.uses := by
    rw [e.items, hchildren, importedNames_append, importedNames_append, hcn,
      (importedNames_of_inline e.inline).1, himported, List.append_nil, List.append_nil]
  have hc := e.childNames_items
  refine ⟨hi.trans hnames, hc, ?_⟩
  rw [hi, hc, ← htexts, e.items, introducedNames_append, introducedNames_append, hchildren, hci,
    introducedNames_of_inline e.inline, hbody]

/-- What defines a name at the top of a module leaves no room for an import or a child module. -/
theorem Emission.nodup_iff (e : Emission g s f m) (h : s.Succeed g files) (hf : f ∈ files) :
    (introducedNames m.file.items).Nodup ↔
      (importedNames m.file.items).Disjoint (childNames m.file.items) := by
  obtain ⟨himported, hchildren, hall⟩ := e.names_items
  obtain ⟨hnodup, hfree⟩ := h.children_spec f.module
  have hlocal {name : String} (hn : name ∈ f.names g.settings.asyncPrefix) :
      s.symbols.isLocal f.module name = true :=
    (h.describes.isLocal _ _).mpr ⟨f, hf, rfl, hn⟩
  have hchild : (childNames m.file.items).Disjoint (f.names g.settings.asyncPrefix) := by
    intro name hc hn
    exact Bool.false_ne_true ((hfree name (hchildren ▸ hc)).symm.trans (hlocal hn))
  have himport : (importedNames m.file.items).Disjoint (f.names g.settings.asyncPrefix) := by
    intro name hi hn
    rw [himported] at hi
    obtain ⟨⟨source, names⟩, hgroup, hname⟩ := List.mem_flatMap.mp hi
    have hentry := ((Imports.mem_eager_split hgroup).2 name hname).1
    exact Bool.false_ne_true ((e.sound.importable name source hentry).free.symm.trans (hlocal hn))
  have hbehind : (childNames m.file.items ++ f.names g.settings.asyncPrefix).Nodup :=
    List.nodup_append'.mpr ⟨hchildren ▸ hnodup, (h.describes.claimed f hf).names, hchild⟩
  have hfront : (importedNames m.file.items).Nodup :=
    himported ▸ Imports.nodup_eager_split e.sound.keys
  rw [hall, List.nodup_append', List.disjoint_append_right]
  constructor
  · rintro ⟨-, -, hdisjoint, -⟩
    exact hdisjoint
  · intro hdisjoint
    exact ⟨hfront, hbehind, hdisjoint, himport⟩

/-- A module that is nothing but an index has its children as names. -/
theorem Stages.Succeed.nodup_indexFile (h : s.Succeed g files) (hm : m ∈ s.indexFiles) :
    (introducedNames m.file.items).Nodup ∧ importedNames m.file.items = [] := by
  obtain ⟨⟨parent, children⟩, hbare, he⟩ := exists_mem_left h.indexFiles hm
  obtain ⟨idents, htexts, hitems⟩ := childItems_ok (indexFile_ok he).2.2.2
  obtain ⟨hintroduced, himported, -⟩ := introducedNames_moduleFiles idents
  rw [hitems, hintroduced, htexts]
  have hsorted := h.index_spec.1.names _ (List.mem_filter.mp hbare).1
  exact ⟨hsorted.imp ne_of_lt, himported⟩

/-! ## Children with the name of something that their parent defines -/

/-- A child of the module of a file has the name of something that is defined at its top. -/
def ChildClash (g : Generator) (files : List SchemaFile) (f : SchemaFile) (child : String) : Prop :=
  StepToAny (files.map (·.module)) f.module child ∧ child ∈ f.names g.settings.asyncPrefix

/-- With a child that clashes the index is refused, for this child or for another such one. -/
theorem indexOf_of_childClash {symbols : SymbolTable}
    (hs : SymbolTable.build files g.settings.asyncPrefix = .ok symbols) {child : String}
    (hf : f ∈ files) (hc : ChildClash g files f child) :
    ∃ f ∈ files, ∃ child, ChildClash g files f child ∧
      indexOf symbols (files.map (·.module)) = .error (.nameCollision f.module.text child) := by
  have hd := (SymbolTable.build_ok hs).1
  cases hi : indexOf symbols (files.map (·.module)) with
  | ok index =>
    have hlocal := (hd.isLocal f.module child).mpr ⟨f, hf, rfl, hc.2⟩
    exact absurd (((indexOf_ok hi).free _ _ hc.1).symm.trans hlocal) Bool.false_ne_true
  | error e =>
    obtain ⟨parent, c, hstep, hlocal, rfl⟩ := indexOf_error hi
    obtain ⟨f', hf', rfl, hname⟩ := (hd.isLocal _ _).mp hlocal
    exact ⟨f', hf', c, ⟨hstep, hname⟩, rfl⟩

/-- With a child that clashes no package is generated, and if nothing else is wrong with the files
the clash is what is said. -/
theorem generate_of_childClash (hindex : g.settings.moduleIndex = true) (hf : f ∈ files)
    {child : String} (hc : ChildClash g files f child) :
    (∀ p, generate g files ≠ .ok p) ∧
      ∀ table drafts, SymbolTable.build files g.settings.asyncPrefix = .ok table →
        files.mapM (draft g table) = .ok drafts →
        ∃ f ∈ files, ∃ child, ChildClash g files f child ∧
          generate g files = .error (.nameCollision f.module.text child) := by
  have hrefused {table : SymbolTable} {drafts : List Draft}
      (hs : SymbolTable.build files g.settings.asyncPrefix = .ok table)
      (hd : List.Forall₂ (fun f d => draft g table f = .ok d) files drafts) :
      ∃ f ∈ files, ∃ child, ChildClash g files f child ∧
        (if g.settings.moduleIndex then indexOf table (drafts.map (·.module)) else .ok []) =
          .error (.nameCollision f.module.text child) := by
    rw [if_pos hindex, modules_of_drafts hd]
    exact indexOf_of_childClash hs hf hc
  constructor
  · intro p h
    obtain ⟨s, hs, -⟩ := generate_ok.mp h
    obtain ⟨_, -, _, -, herror⟩ := hrefused hs.symbols hs.drafts
    cases hs.index.symm.trans herror
  · intro table drafts hs hd
    have hdrafts := mapM_ok.mp hd
    obtain ⟨f', hf', child', hclash, herror⟩ := hrefused hs hdrafts
    refine ⟨f', hf', child', hclash, ?_⟩
    exact generate_of_index_error hs hd herror

/-- In every generated module the names of imports, of child modules and of what is defined there
differ from each other, unless a child module has the name of an import; without an index there are
no child modules. A child module with the name of something that its parent defines is refused.
Files are left out where definitions of the same full name are called differently, which takes
names with dots in them: there `A.B` and the `B` inside `A` are one name. -/
theorem introducedNames_nodup (hn : Unambiguous files) :
    (∀ p, generate g files = .ok p → ∀ m ∈ p.modules,
      ((introducedNames m.file.items).Nodup ↔
        (importedNames m.file.items).Disjoint (childNames m.file.items)) ∧
      (g.settings.moduleIndex = false → (introducedNames m.file.items).Nodup)) ∧
    (g.settings.moduleIndex = true → ∀ f ∈ files, ∀ child, ChildClash g files f child →
      (∀ p, generate g files ≠ .ok p) ∧
        ∀ table drafts, SymbolTable.build files g.settings.asyncPrefix = .ok table →
          files.mapM (draft g table) = .ok drafts →
          ∃ f ∈ files, ∃ child, ChildClash g files f child ∧
            generate g files = .error (.nameCollision f.module.text child)) := by
  refine ⟨fun p h m hm => ?_, fun hindex f hf child hc => generate_of_childClash hindex hf hc⟩
  obtain ⟨s, hs, rfl⟩ := generate_ok.mp h
  have hiff : (introducedNames m.file.items).Nodup ↔
      (importedNames m.file.items).Disjoint (childNames m.file.items) := by
    rcases hs.assembly_or_index hm with ⟨f, hf, ⟨a⟩⟩ | hm
    · obtain ⟨e⟩ := hs.emission_of_assembly hn hf a
      exact e.nodup_iff hs hf
    · obtain ⟨hnodup, himported⟩ := hs.nodup_indexFile hm
      exact iff_of_true hnodup (himported ▸ List.disjoint_nil_left _)
  refine ⟨hiff, fun hindex => hiff.mpr ?_⟩
  rcases hs.assembly_or_index hm with ⟨f, hf, ⟨a⟩⟩ | hm
  · obtain ⟨e⟩ := hs.emission_of_assembly hn hf a
    have hnil := hs.index
    rw [hindex, if_neg Bool.false_ne_true] at hnil
    rw [e.names_items.2.1, ← Except.ok.inj hnil]
    exact List.disjoint_nil_right _
  · rw [(hs.nodup_indexFile hm).2]
    exact List.disjoint_nil_left _

/-- A generator that keeps to the default settings but for an index of child modules. -/
def indexing : Generator :=
  { plain with settings := { moduleIndex := true } }

/-- The module of the first file imports `b` from the last one, and the module of the second file is
its child `b`. -/
def shadowing : List SchemaFile :=
  [{ path := "a.proto", package := "p"
     messages := [
       { name := "A", fields := [{ name := "x", type := .named "c.B.X", number := 1 }] }] },
   { path := "a/b.proto", package := "q" },
   { path := "c.proto", package := "c"
     messages := [{ name := "B", messages := [{ name := "X" }] }] }]

def shadowingSymbols : SymbolTable :=
  (SymbolTable.build shadowing "Async").toOption.getD {}

def shadowingDrafts : List Draft :=
  (shadowing.mapM (draft indexing shadowingSymbols)).toOption.getD []

def shadowingGraph : Imports.Graph :=
  [(⟨["a"]⟩, [⟨["c"]⟩]), (⟨["a", "b"]⟩, []), (⟨["c"]⟩, [])]

theorem backEdges_shadowingGraph : Imports.backEdges shadowingGraph = [] := by
  have ha : shadowingGraph.targets ⟨["a"]⟩ = [⟨["c"]⟩] := by decide
  have hb : shadowingGraph.targets ⟨["a", "b"]⟩ = [] := by decide
  have hc : shadowingGraph.targets ⟨["c"]⟩ = [] := by decide
  have hkeys : shadowingGraph.map (·.1) = [⟨["a"]⟩, ⟨["a", "b"]⟩, ⟨["c"]⟩] := rfl
  have hlength : shadowingGraph.length = 3 := rfl
  simp [Imports.backEdges, Imports.visit, Imports.visitAll, ha, hb, hc, hkeys, hlength]

def shadowingIndex : Index :=
  [(⟨[]⟩, ["a", "c"]), (⟨["a"]⟩, ["b"])]

/-- The modules of the files, with no imports deferred. -/
def shadowingModules : List GeneratedModule :=
  (shadowingDrafts.mapM (finish indexing.root ⟨(importSets shadowingDrafts).map fun (m, set) =>
    (m, Imports.split [] m set), []⟩ shadowingIndex)).toOption.getD []

/-- A package with a module in which a child has the name of an import. -/
theorem exists_generate_shadowing : ∃ p, generate indexing shadowing = .ok p ∧
    ∃ m ∈ p.modules, ¬ (introducedNames m.file.items).Nodup := by
  have hs : SymbolTable.build shadowing indexing.settings.asyncPrefix = .ok shadowingSymbols :=
    ok_getD {} (by decide +kernel)
  have hd : shadowing.mapM (draft indexing shadowingSymbols) = .ok shadowingDrafts :=
    ok_getD [] (by decide +kernel)
  have hg : Imports.graphOf (importSets shadowingDrafts) = shadowingGraph := by decide +kernel
  have hi : indexOf shadowingSymbols (shadowingDrafts.map (·.module)) =
      .ok shadowingIndex := by decide +kernel
  have hdemoted : Imports.sortedEdges (Imports.backEdges (Imports.graphOf
      (importSets shadowingDrafts))) = [] := by
    rw [hg, backEdges_shadowingGraph, Imports.sortedEdges, List.mergeSort_nil]
  have hf : shadowingDrafts.mapM (finish indexing.root ⟨(importSets shadowingDrafts).map
      fun (m, set) => (m, Imports.split [] m set), []⟩ shadowingIndex) = .ok shadowingModules :=
    ok_getD [] (by decide +kernel)
  refine ⟨_, generate_of_stages hs hd hi (hdemoted ▸ hf) (ok_getD [] (by decide +kernel)), ?_⟩
  have hclash : (shadowingModules.any fun m => !decide (introducedNames m.file.items).Nodup) =
      true := by decide +kernel
  obtain ⟨m, hm, hnodup⟩ := List.any_eq_true.mp hclash
  refine ⟨m, List.mem_mergeSort.mpr (List.mem_append_left _ hm), ?_⟩
  simpa using hnodup

theorem introducedNames_nodup_shadowing :
    (Unambiguous shadowing ∧ ∃ p, generate indexing shadowing = .ok p ∧
      (∃ m ∈ p.modules, ¬ (introducedNames m.file.items).Nodup) ∧
      ∀ m ∈ p.modules, ((introducedNames m.file.items).Nodup ↔
        (importedNames m.file.items).Disjoint (childNames m.file.items))) ∧
    Unambiguous crossing ∧ indexing.settings.moduleIndex = true ∧
      ∃ f ∈ crossing, ∃ child, ChildClash indexing crossing f child ∧
        generate indexing crossing = .error (.nameCollision f.module.text child) := by
  have hshadowing : Unambiguous shadowing := unambiguous_of_dotless (by decide)
  have hcrossing := distinctNames_crossing.unambiguous
  obtain ⟨p, h, hm⟩ := exists_generate_shadowing
  refine ⟨⟨hshadowing, p, h, hm, fun m hm => ?_⟩, hcrossing, rfl, ?_⟩
  · exact ((introducedNames_nodup hshadowing).1 p h m hm).1
  · have hstep : StepToAny (crossing.map (·.module)) ⟨["a"]⟩ "b" :=
      ⟨⟨["a", "b"]⟩, by decide, .later .first⟩
    have hclash : ChildClash indexing crossing crossing.head! "b" := ⟨hstep, by decide⟩
    exact ((introducedNames_nodup hcrossing).2 rfl _ List.mem_cons_self "b" hclash).2 _ _
      build_crossing drafts_crossing

end SchemaBindings.Package
