import SchemaBindings.Proofs.Binding.Module
import SchemaBindings.Proofs.Imports.Deferred
import SchemaBindings.Proofs.Package.Generate

/-!
What a generated package consists of: every schema file has a module with the items made for it,
behind its imports and the declarations of its child modules. Where names are not ambiguous these
items mirror the file.
-/

namespace SchemaBindings

open Code

theorem Imports.useItem_ok {root : Path} {source : ModuleId} {names : List String} {item : Item}
    (h : useItem root source names = .ok item) : ∃ path idents,
      item = .use path idents ∧ source.path root = .ok path ∧
        names.mapM Ident.ofName = .ok idents := by
  obtain ⟨path, hpath, h⟩ := bind_ok.mp h
  obtain ⟨idents, hidents, h⟩ := bind_ok.mp h
  refine ⟨path, idents, ?_, hpath, hidents⟩
  split at h
  · next i hi =>
    cases h
    rw [Item.readBack?] at hi
    split at hi <;> cases hi
    rfl
  · cases h

namespace Package

variable {g : Generator} {files : List SchemaFile}

/-- The module of a schema file in a package: its imports, the declarations of its child modules
and the items that are made for the file, before they are finished and after that. -/
structure Assembly (g : Generator) (s : Stages) (f : SchemaFile) (m : GeneratedModule) where
  imports : ImportSet
  relocation : Relocation
  uses : List Item
  children : List Item
  raw : List Item
  body : List Item
  module : m.module = f.module
  source : m.source = some f.path
  path : m.path = f.module.outputPath
  made : ∃ docs notes,
    (Binding.moduleFile (g.context s.symbols f) f).run {} = .ok (⟨docs, raw⟩, notes)
  sound : Binding.SoundImports (g.context s.symbols f) imports
  emitted : Binding.FileEmitted (g.context s.symbols f) imports f raw
  finished : List.Forall₂ (Item.Finished relocation) raw body
  relocationOk : Imports.relocation g.root
    (Imports.split s.resolution.demoted f.module imports).deferred = .ok relocation
  usesOk : (Imports.split s.resolution.demoted f.module imports).eager.mapM
    (fun e => Imports.useItem g.root e.1 e.2) = .ok uses
  childrenOk : childItems ((s.index.lookup f.module).getD []) = .ok children
  items : m.file.items = uses ++ (children ++ body)

/-- The module of a schema file that its items mirror. -/
structure Emission (g : Generator) (s : Stages) (f : SchemaFile) (m : GeneratedModule) extends
    Assembly g s f m where
  mirrored : Binding.FileMirrored (g.context s.symbols f) imports f raw

namespace Stages.Succeed

variable {s : Stages}

theorem describes (h : s.Succeed g files) :
    s.symbols.Describes g.settings.asyncPrefix files :=
  (SymbolTable.build_ok h.symbols).1

/-- The module that is finished for a draft is the one of its schema file. -/
theorem assembly (h : s.Succeed g files) {f : SchemaFile} {d : Draft} (hmem : d ∈ s.drafts)
    (hd : draft g s.symbols f = .ok d) {m : GeneratedModule}
    (hm : finish g.root s.resolution s.index d = .ok m) : Nonempty (Assembly g s f m) := by
  obtain ⟨hmodule, hsource, raw, items, hraw, hitems, hfile⟩ := draft_ok hd
  obtain ⟨hm₁, hm₂, hm₃, relocation, uses, children, hr, hu, hc, hall⟩ := finish_ok hm
  have hensures := Binding.moduleFile_ensures (g.context s.symbols f) f
  obtain ⟨hsound, -, hemitted⟩ := hensures {} raw d.notes hraw (.empty _)
  rw [lookup_resolution h.symbols h.drafts h.resolution hmem, Option.getD_some, hmodule] at hr hu
  rw [hmodule] at hm₁ hm₃ hc
  rw [hsource] at hm₂
  refine ⟨⟨d.notes.imports, relocation, uses, children, raw.items,
    relocateItems relocation items, hm₁, hm₂, hm₃, ⟨raw.docs, d.notes, hraw⟩, hsound,
    hemitted _ (.refl _), forall₂_finished hitems, hr, hu, hc, ?_⟩⟩
  rw [hall, hfile]

/-- Without ambiguous names the items of a module mirror its schema file. -/
theorem emission_of_assembly (h : s.Succeed g files) (hn : Unambiguous files) {f : SchemaFile}
    (hf : f ∈ files) {m : GeneratedModule} (a : Assembly g s f m) : Nonempty (Emission g s f m) :=
  ⟨⟨a, a.emitted.mirrored h.describes hn hf⟩⟩

/-- Every schema file has its module in the package. -/
theorem exists_assembly (h : s.Succeed g files) {f : SchemaFile} (hf : f ∈ files) :
    ∃ m ∈ s.package.modules, Nonempty (Assembly g s f m) := by
  obtain ⟨d, hmem, hd⟩ := exists_mem_right h.drafts hf
  obtain ⟨m, hfinished, hm⟩ := exists_mem_right h.finished hmem
  refine ⟨m, ?_, h.assembly hmem hd hm⟩
  exact mem_package_modules.mpr (.inl hfinished)

theorem exists_emission (h : s.Succeed g files) (hn : DistinctNames files) {f : SchemaFile}
    (hf : f ∈ files) : ∃ m ∈ s.package.modules, Nonempty (Emission g s f m) := by
  obtain ⟨m, hm, ⟨a⟩⟩ := h.exists_assembly hf
  exact ⟨m, hm, h.emission_of_assembly hn.unambiguous hf a⟩

/-- Every module of the package is that of a schema file or an index. -/
theorem assembly_or_index (h : s.Succeed g files) {m : GeneratedModule}
    (hm : m ∈ s.package.modules) :
    (∃ f ∈ files, Nonempty (Assembly g s f m)) ∨ m ∈ s.indexFiles := by
  rcases mem_package_modules.mp hm with hm | hm
  · obtain ⟨d, hmem, hfinish⟩ := exists_mem_left h.finished hm
    obtain ⟨f, hf, hd⟩ := exists_mem_left h.drafts hmem
    exact .inl ⟨f, hf, h.assembly hmem hd hfinish⟩
  · exact .inr hm

theorem emission_or_index (h : s.Succeed g files) (hn : DistinctNames files)
    {m : GeneratedModule} (hm : m ∈ s.package.modules) :
    (∃ f ∈ files, Nonempty (Emission g s f m)) ∨ m ∈ s.indexFiles := by
  rcases h.assembly_or_index hm with ⟨f, hf, ⟨a⟩⟩ | hm
  · exact .inl ⟨f, hf, h.emission_of_assembly hn.unambiguous hf a⟩
  · exact .inr hm

/-- Two modules of schema files are the same if they have the same identity. -/
theorem eq_of_module (h : s.Succeed g files) {m m' : GeneratedModule} (hm : m ∈ s.finished)
    (hm' : m' ∈ s.finished) (he : m.module = m'.module) : m = m' := by
  obtain ⟨d, hd, hfinish⟩ := exists_mem_left h.finished hm
  obtain ⟨d', hd', hfinish'⟩ := exists_mem_left h.finished hm'
  obtain ⟨f, hf, hdraft⟩ := exists_mem_left h.drafts hd
  obtain ⟨f', hf', hdraft'⟩ := exists_mem_left h.drafts hd'
  have hmodules : f.module = f'.module := by
    rw [← (draft_ok hdraft).1, ← (draft_ok hdraft').1, ← (finish_ok hfinish).1,
      ← (finish_ok hfinish').1, he]
  obtain rfl := h.describes.eq_of_module hf hf' hmodules
  obtain rfl := Except.ok.inj (hdraft.symm.trans hdraft')
  exact Except.ok.inj (hfinish.symm.trans hfinish')

/-- An index has no schema file as its source. -/
theorem source_of_mem_indexFiles (h : s.Succeed g files) {m : GeneratedModule}
    (hm : m ∈ s.indexFiles) : m.source = none := by
  obtain ⟨e, -, he⟩ := exists_mem_left h.indexFiles hm
  exact (indexFile_ok he).2.1

/-- Without an index only schema files have modules. -/
theorem indexFiles_eq_nil (h : s.Succeed g files)
    (hi : g.settings.moduleIndex = false) : s.index = [] ∧ s.indexFiles = [] := by
  have hindex := h.index
  rw [hi, if_neg Bool.false_ne_true] at hindex
  have hnil : s.index = [] := (Except.ok.inj hindex).symm
  have hfiles := h.indexFiles
  rw [bare, hnil, List.filter_nil] at hfiles
  exact ⟨hnil, List.forall₂_nil_left_iff.mp hfiles⟩

/-- Without an index all modules are those of files. -/
theorem modules_perm (h : s.Succeed g files) (hindex : g.settings.moduleIndex = false) :
    s.package.modules.Perm s.finished := by
  have hall := s.package_modules_perm
  rwa [(h.indexFiles_eq_nil hindex).2, List.append_nil] at hall

theorem exists_file (h : s.Succeed g files) (hn : DistinctNames files)
    (hindex : g.settings.moduleIndex = false) {m : GeneratedModule}
    (hm : m ∈ s.package.modules) : ∃ f ∈ files, Nonempty (Emission g s f m) := by
  refine (h.emission_or_index hn hm).resolve_right fun hindexed => ?_
  rw [(h.indexFiles_eq_nil hindex).2] at hindexed
  cases hindexed

theorem emission_of_source (h : s.Succeed g files) (hn : DistinctNames files) {f : SchemaFile}
    (hf : f ∈ files) {m : GeneratedModule} (hm : m ∈ s.package.modules)
    (hs : m.source = some f.path) : Nonempty (Emission g s f m) := by
  rcases h.emission_or_index hn hm with ⟨f', hf', ⟨e⟩⟩ | hm
  · have hpath : f'.path = f.path := Option.some.inj (e.source.symm.trans hs)
    have hmodules : f'.module = f.module := by
      rw [SchemaFile.module, hpath, SchemaFile.module]
    obtain rfl := h.describes.eq_of_module hf' hf hmodules
    exact ⟨e⟩
  · cases (h.source_of_mem_indexFiles hm).symm.trans hs

end Stages.Succeed

namespace Assembly

variable {s : Stages} {f : SchemaFile} {m : GeneratedModule}

/-- The imports of a module are groups of names, each from one source. -/
theorem mem_uses (a : Assembly g s f m) {item : Item} (h : item ∈ a.uses) :
    ∃ group ∈ (Imports.split s.resolution.demoted f.module a.imports).eager, ∃ path idents,
      item = .use path idents ∧ group.1.path g.root = .ok path ∧
        group.2.mapM Ident.ofName = .ok idents := by
  obtain ⟨group, hg, hi⟩ := exists_mem_left (mapM_ok.mp a.usesOk) h
  exact ⟨group, hg, Imports.useItem_ok hi⟩

theorem mem_children (a : Assembly g s f m) {item : Item} (h : item ∈ a.children) :
    ∃ name, item = .moduleFile name := by
  obtain ⟨idents, -, hitems⟩ := childItems_ok a.childrenOk
  obtain ⟨name, -, rfl⟩ := List.mem_map.mp (hitems ▸ h)
  exact ⟨name, rfl⟩

/-- The items that are made for the file are written where they stand. -/
theorem inline (a : Assembly g s f m) : ∀ item ∈ a.body, item.isInline = true := by
  intro item hm
  obtain ⟨raw, hraw, hfinished⟩ := exists_mem_left a.finished hm
  exact hfinished.isInline.trans (a.emitted.inline raw hraw)

theorem itemAt_of_body (a : Assembly g s f m) {path : List String} {item : Item}
    (h : ItemAt a.body path item) : ItemAt m.file.items path item := by
  rw [a.items]
  exact ItemAt.append_iff.mpr (.inr (ItemAt.append_iff.mpr (.inr h)))

/-- Imports have no place, and nothing stands in the declaration of a child module. -/
theorem itemAt_cases (a : Assembly g s f m) {path : List String} {item : Item}
    (h : ItemAt m.file.items path item) : ItemAt a.body path item ∨ item ∈ a.children := by
  rw [a.items] at h
  rcases ItemAt.append_iff.mp h with h | h
  · rcases h with ⟨hm, hn⟩ | ⟨hm, -⟩ <;> obtain ⟨_, -, _, _, he, -⟩ := a.mem_uses hm
    · rw [he] at hn
      cases hn
    · cases he
  rcases ItemAt.append_iff.mp h with h | h
  · rcases h with ⟨hm, -⟩ | ⟨hm, -⟩
    · exact .inr hm
    · obtain ⟨_, he⟩ := a.mem_children hm
      cases he
  · exact .inl h

/-- The imports at the top of a module are those that are not deferred. -/
theorem source_of_use (a : Assembly g s f m) {source : Path} {idents : List Ident}
    {name : String} (hu : .use source idents ∈ m.file.items) (hn : ⟨name⟩ ∈ idents) :
    ∃ module, (name, module) ∈ a.imports.entries ∧ g.root.Below module.segments source := by
  rw [a.items] at hu
  have huse : .use source idents ∈ a.uses := by
    rcases List.mem_append.mp hu with hu | hu
    · exact hu
    rcases List.mem_append.mp hu with hu | hu
    · obtain ⟨_, he⟩ := a.mem_children hu
      cases he
    · exact absurd (a.inline _ hu) Bool.false_ne_true
  obtain ⟨⟨module, names⟩, hgroup, path, idents', he, hpath, hidents⟩ := a.mem_uses huse
  cases he
  have htexts : idents.map (·.text) = names := Ident.texts_of_mapM hidents
  have hname : name ∈ names := htexts ▸ List.mem_map.mpr ⟨_, hn, rfl⟩
  exact ⟨module, ((Imports.mem_eager_split hgroup).2 name hname).1, Path.below_of_modulePath hpath⟩

/-- A name is imported from one module only. -/
theorem import_unique (a : Assembly g s f m) {name : String} {source source' : ModuleId}
    (h : (name, source) ∈ a.imports.entries) (h' : (name, source') ∈ a.imports.entries) :
    source = source' :=
  eq_of_mem a.sound.keys h h'

theorem exists_use (a : Assembly g s f m) {module : ModuleId} {name : String}
    (hn : (name, module) ∈ a.imports.entries) (hd : (f.module, module) ∉ s.resolution.demoted) :
    ∃ source idents, .use source idents ∈ m.file.items ∧ ⟨name⟩ ∈ idents := by
  obtain ⟨names, hl, hname⟩ := Imports.lookup_eager_split.mpr ⟨hn, hd⟩
  obtain ⟨item, hitem, hi⟩ := exists_mem_right (mapM_ok.mp a.usesOk) (mem_of_lookup hl)
  obtain ⟨source, idents, rfl, -, hidents⟩ := Imports.useItem_ok hi
  refine ⟨source, idents, a.items ▸ List.mem_append_left _ hitem, ?_⟩
  have htexts : idents.map (·.text) = names := Ident.texts_of_mapM hidents
  rw [← htexts] at hname
  obtain ⟨⟨_⟩, hmem, rfl⟩ := List.mem_map.mp hname
  exact hmem

/-- What is found for a name when a module is relocated. -/
theorem lookup_relocation (a : Assembly g s f m) (name : String) :
    (a.relocation.lookup name = none ∧
      ∀ source, (name, source) ∈ a.imports.entries → (f.module, source) ∉ s.resolution.demoted) ∨
    ∃ source target, (name, source) ∈ a.imports.entries ∧
      a.relocation.lookup name = some target ∧ source.path g.root = .ok target := by
  rcases Imports.lookup_relocation a.relocationOk name with ⟨hnone, hr⟩ | ⟨source, target, hs, hr⟩
  · refine .inl ⟨hr, fun source hmem hd => ?_⟩
    rw [(Imports.lookup_deferred_split a.sound.keys).mpr ⟨hmem, hd⟩] at hnone
    cases hnone
  · exact .inr ⟨source, target, ((Imports.lookup_deferred_split a.sound.keys).mp hs).1, hr⟩

/-- A name that a module has for its own is not relocated in it. -/
theorem lookup_relocation_of_isLocal (a : Assembly g s f m) {name : String}
    (hlocal : s.symbols.isLocal f.module name = true) : a.relocation.lookup name = none := by
  rcases a.lookup_relocation name with ⟨hnone, -⟩ | ⟨source, _, himport, -⟩
  · exact hnone
  · have hfree := (a.sound.importable name source himport).free
    exact absurd (hfree.symm.trans hlocal) Bool.false_ne_true

theorem lookup_clientName (a : Assembly g s f m) (h : s.Succeed g files) (hf : f ∈ files)
    {service : Service} (hservice : service ∈ f.services) (mode : Mode) :
    a.relocation.lookup (service.clientName g.settings.asyncPrefix mode) = none :=
  a.lookup_relocation_of_isLocal
    ((h.describes.isLocal _ _).mpr ⟨f, hf, rfl, clientName_mem_names hservice mode⟩)

/-- The structure of a message stands in the scope that its parents lead to, with its fields
relocated. -/
theorem exists_struct (a : Assembly g s f m) {q : PlacedMessage}
    (hq : q ∈ f.placedMessages) : ∃ here attributes name fields,
      ScopeAt m.file.items q.parents here ∧
      .struct attributes name (fields.map (·.relocate a.relocation)) ∈ here ∧
      List.Forall₂ (Binding.FieldEmitted (g.context s.symbols f) a.imports q.fullName
        q.parents.length) q.message.fields fields := by
  obtain ⟨raw, attributes, name, fields, hraw, hstruct, hfields⟩ := a.emitted.exists_struct hq
  obtain ⟨body, hbody, hfinished⟩ := (reshapes_finished a.relocation).scopeAt_right a.finished hraw
  obtain ⟨item, hitem, hi⟩ := exists_mem_right hfinished hstruct
  obtain rfl := hi.of_struct
  have hitems : a.body ⊆ m.file.items := fun i hi => by
    rw [a.items]
    exact List.mem_append_right _ (List.mem_append_right _ hi)
  obtain ⟨here, hscope, hsub⟩ := hbody.mono hitems
  exact ⟨here, attributes, name, fields, hscope, hsub hitem, hfields⟩

end Assembly

namespace Emission

variable {s : Stages} {f : SchemaFile} {m : GeneratedModule}

/-- The structure of a message stands at its place, and no other one does. -/
theorem struct_iff (e : Emission g s f m) (hd : SymbolTable.Claimed g.settings.asyncPrefix f)
    {p : PlacedMessage} (hp : p ∈ f.placedMessages) : ∃ attributes name fields,
      List.Forall₂ (Binding.FieldEmitted (g.context s.symbols f) e.imports p.fullName
        p.parents.length) p.message.fields fields ∧
      ∀ attributes' name' fields', ItemAt m.file.items p.path (.struct attributes' name' fields') ↔
        attributes' = attributes ∧ name' = name ∧
          fields' = fields.map (·.relocate e.relocation) := by
  obtain ⟨attributes, name, fields, hraw, hf⟩ := e.mirrored.messages.structs p hp
  have hreshapes := reshapes_finished e.relocation
  have hscopes := hreshapes.distinctScopes e.finished (e.mirrored.distinctScopes hd)
  obtain ⟨item, hitem, hfinished⟩ := hreshapes.itemAt_right e.finished hraw
  obtain rfl := hfinished.of_struct
  refine ⟨attributes, name, fields, by simpa using hf, fun attributes' name' fields' => ?_⟩
  constructor
  · intro h
    rcases e.itemAt_cases h with h | h
    · cases hscopes.unique h hitem
      exact ⟨rfl, rfl, rfl⟩
    · obtain ⟨_, he⟩ := e.mem_children h
      cases he
  · rintro ⟨rfl, rfl, rfl⟩
    exact e.itemAt_of_body hitem

/-- The clients of services stand among the items, with a function for every method. -/
theorem exists_client (e : Emission g s f m) (h : s.Succeed g files) (hf : f ∈ files)
    {service : Service} (hs : service ∈ f.services) (mode : Mode) :
    ∃ name constructor functions,
      name.text = service.clientName g.settings.asyncPrefix mode ∧
      .finishedClient e.relocation name service.fullName (constructor :: functions) ∈
        m.file.items ∧
      List.Forall₂ (fun method function => ∃ made, Binding.MethodEmitted (g.context s.symbols f)
        e.imports mode service method made ∧ Function.Finished e.relocation made function)
        service.methods functions := by
  obtain ⟨name, made, hname, hclient, hmade⟩ := e.mirrored.clients service hs mode
  obtain ⟨item, hitem, hfinished⟩ := exists_mem_right e.finished hclient
  obtain ⟨all, rfl, hall⟩ := hfinished.of_client (hname ▸ e.lookup_clientName h hf hs mode)
  cases hall with
  | @cons _ constructor _ functions _ hfunctions =>
    refine ⟨name, constructor, functions, hname, ?_, forall₂_comp hmade hfunctions⟩
    rw [e.items]
    exact List.mem_append_right _ (List.mem_append_right _ hitem)

end Emission

end Package

end SchemaBindings
