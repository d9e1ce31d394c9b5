import Mathlib.Algebra.Order.BigOperators.Group.List
import SchemaBindings.Proofs.Binding.Lone
import SchemaBindings.Proofs.Package.Safety

/-!
What settings can still break after they were accepted. They are read as paths, types and
identifiers of any form, but put into places where not every form can stand. Generation breaks off
for some schema of usable names exactly if names cannot be put behind the root of the modules or the
prefix of clients, and if a type that is given to a field cannot be laid out.
-/

namespace SchemaBindings

open Code Naming Binding

/-! ## Accepted settings -/

theorem Code.Reader.isName_of_name {ts rest : List Token} {i : Ident}
    (h : name ts = some (i, rest)) : i.isName = true := by
  have hname : name ts = (if beginsName ts then (do return ⟨← anyWord⟩ : Reader Ident)
      else failure) ts := rfl
  rw [hname] at h
  split at h
  · next hb =>
    unfold beginsName at hb
    split at hb
    · cases h
      exact hb
    · cases hb
  · cases h

/-- An identifier that was read can name an item. -/
theorem Code.Ident.isName_of_read? {text : String} {i : Ident} (h : Ident.read? text = some i) :
    i.isName = true := by
  obtain ⟨ts, -, hall⟩ := Option.bind_eq_some_iff.mp h
  unfold Reader.all at hall
  split at hall
  · next hname =>
    cases hall
    exact Reader.isName_of_name hname
  · cases hall

theorem SupportLibrary.isName_fieldAttribute {s : RuntimeSettings} {l : SupportLibrary}
    (h : ofSettings s = .ok l) : l.fieldAttribute.isName = true := by
  obtain ⟨_, -, h⟩ := bind_ok.mp h
  obtain ⟨_, -, h⟩ := bind_ok.mp h
  obtain ⟨ident, hident, h⟩ := bind_ok.mp h
  have hname : ident.isName = true := by
    unfold readText Settings.readText at hident
    split at hident
    · next hread =>
      cases hident
      exact Ident.isName_of_read? hread
    · cases hident
  -- The settings behind it are read into other fields.
  simp only [bind_ok] at h
  obtain ⟨_, -, _, -, _, -, _, -, _, -, _, -, _, -, h⟩ := h
  obtain ⟨_, -, _, -, _, -, _, -, _, -, _, -, _, -, h⟩ := h
  cases h
  exact hname

/-- What accepted settings promise about single names. -/
structure Generator.IsAccepted (g : Generator) : Prop where
  asyncPrefix : g.settings.asyncPrefix ≠ ""
  fieldAttribute : g.library.fieldAttribute.text ≠ "try"

theorem Generator.IsAccepted.of_ofSettings {s : Settings} {g : Generator}
    (h : ofSettings s = .ok g) : g.IsAccepted := by
  obtain ⟨types, -, h⟩ := bind_ok.mp h
  obtain ⟨library, hlibrary, h⟩ := bind_ok.mp h
  obtain ⟨root, -, h⟩ := bind_ok.mp h
  split at h
  · cases h
  · next hprefix =>
    obtain ⟨_, -, h⟩ := bind_ok.mp h
    cases h
    refine ⟨fun hempty => hprefix (congrArg String.isEmpty hempty), fun htry => ?_⟩
    have hname := SupportLibrary.isName_fieldAttribute hlibrary
    rw [Ident.isName, htry] at hname
    cases hname

/-- There is a package from which nothing is mapped to another type. -/
theorem TypeMap.exists_package (m : TypeMap) : ∃ package : String, package ≠ "" ∧
    ∀ name, m.extern? (qualify package name) = none := by
  let longest := (m.externTypes.map (·.1.toList.length)).sum
  have hlength : (String.ofList (List.replicate (longest + 1) 'p')).toList.length =
      longest + 1 := by simp
  generalize String.ofList (List.replicate (longest + 1) 'p') = package at hlength
  have hne : package ≠ "" := by
    rintro rfl
    cases hlength
  refine ⟨package, hne, fun name => ?_⟩
  rw [extern?, ← Option.not_isSome_iff_eq_none, ← mem_keys_iff_lookup]
  intro hkey
  obtain ⟨e, he, hname⟩ := List.mem_map.mp hkey
  have hle : e.1.toList.length ≤ longest :=
    List.single_le_sum (fun _ _ => Nat.zero_le _) _ (List.mem_map.mpr ⟨e, he, rfl⟩)
  have hempty : package.isEmpty = false := by
    simpa using hne
  have hlong := congrArg (·.toList.length) hname
  simp [qualify, hempty] at hlong hlength
  omega

namespace Package

variable {g : Generator} {files : List SchemaFile} {f : SchemaFile} {symbols : SymbolTable}

/-! ## Tables and drafts -/

/-- The table of files, and what is found in it. -/
structure IsTable (g : Generator) (files : List SchemaFile) (t : SymbolTable) : Prop where
  build : SymbolTable.build files g.settings.asyncPrefix = .ok t
  get? : ∀ d ∈ definitions files, t.get? d.1 = some d.2
  isLocal : ∀ m name, t.isLocal m name = true ↔
    ∃ f ∈ files, f.module = m ∧ name ∈ f.names g.settings.asyncPrefix

theorem exists_isTable (hm : (files.map (·.module)).Nodup)
    (hc : ∀ f ∈ files, SymbolTable.Claimed g.settings.asyncPrefix f) (hn : DistinctNames files) :
    ∃ t, IsTable g files t := by
  obtain ⟨t, ht⟩ := SymbolTable.exists_build_iff.mpr ⟨hm, hc⟩
  have hd := (SymbolTable.build_ok ht).1
  exact ⟨t, ht, fun d hmem => (hd.get?_eq_some hn).mpr hmem, hd.isLocal⟩

/-- Steps to modules that are not inside others come from the root of the tree, at the top of which
there is nothing. -/
theorem IsTable.isLocal_of_stepToAny {t : SymbolTable} (ht : IsTable g files t)
    (hflat : ∀ f ∈ files, f.module.segments.length = 1) {parent : ModuleId} {child : String}
    (h : StepToAny (files.map (·.module)) parent child) :
    parent.segments = [] ∧ t.isLocal parent child = false := by
  have hparent : parent.segments = [] := by
    obtain ⟨m, hm, hstep⟩ := h
    obtain ⟨f, hf, rfl⟩ := List.mem_map.mp hm
    have hlength := (stepTo_iff.mp hstep).length_le
    rw [List.length_append, hflat f hf, List.length_singleton] at hlength
    exact List.length_eq_zero_iff.mp (by omega)
  refine ⟨hparent, Bool.eq_false_iff.mpr fun hlocal => ?_⟩
  obtain ⟨f, hf, rfl, -⟩ := (ht.isLocal _ _).mp hlocal
  have hlength := hflat f hf
  rw [hparent] at hlength
  cases hlength

/-- So none of them declares another one. -/
theorem IsTable.children_eq_nil {t : SymbolTable} (ht : IsTable g files t)
    (hflat : ∀ f ∈ files, f.module.segments.length = 1) {parent : ModuleId} {children : List String}
    (hne : parent.segments ≠ [])
    (h : ∀ child ∈ children, StepToAny (files.map (·.module)) parent child) : children = [] :=
  List.eq_nil_iff_forall_not_mem.mpr fun child hc =>
    hne (ht.isLocal_of_stepToAny hflat (h child hc)).1

theorem draft_of_moduleFile_error {e : Failure}
    (h : (moduleFile (g.context symbols f) f).run {} = .error e) :
    draft g symbols f = .error e := by
  rw [draft]
  exact bind_of_error h _

/-- The draft of a message whose fields are well-formed. -/
theorem draft_lone (path : String) {package name : String} {s : Symbol}
    {fields : List SchemaBindings.Field} {emitted : List StructField} {notes : Notes}
    (hs : symbols.get? (qualify package name) = some s) (hn : IsUsable s.name)
    (hf : (structFields (g.context symbols (lone path package { name, fields }))
      (qualify package name) 0 fields { scope := qualify package name }).run {} =
        .ok (emitted, notes))
    (hw : emitted.all StructField.isWellFormed = true) :
    draft g symbols (lone path package { name, fields }) = .ok ⟨ModuleId.ofSchemaPath path, path,
      ⟨[sourceDoc path], [structOf g.library s.name emitted]⟩, notes⟩ := by
  have hraw : (moduleFile (g.context symbols (lone path package { name, fields }))
      (lone path package { name, fields })).run {} =
        .ok (⟨[sourceDoc path], [structOf g.library s.name emitted]⟩, notes) :=
    moduleFile_lone_ok hs hn hf
  have hread : (structOf g.library s.name emitted).readBack? =
      some (structOf g.library s.name emitted) := by
    rw [structOf, Item.readBack?, hn.isName, hw]
    rfl
  rw [draft]
  refine (bind_of_ok hraw _).trans ?_
  dsimp only
  rw [File.checked, itemsReadBack?, hread]
  rfl

/-! ## Roots of modules -/

/-- What is made of the paths and names of the schemas here. -/
theorem conversions :
    (ModuleId.ofSchemaPath "a.proto" = ⟨["a"]⟩ ∧ ModuleId.ofSchemaPath "b.proto" = ⟨["b"]⟩) ∧
    (typeName "A" = "A" ∧ typeName "B" = "B" ∧ typeName "_" = "_") ∧ moduleName "A" = "a" := by
  decide +kernel

theorem module_a : ModuleId.ofSchemaPath "a.proto" = ⟨["a"]⟩ :=
  conversions.1.1

theorem module_b : ModuleId.ofSchemaPath "b.proto" = ⟨["b"]⟩ :=
  conversions.1.2

theorem typeName_A : typeName "A" = "A" :=
  conversions.2.1.1

theorem isUsable_A : IsUsable "A" :=
  ⟨by decide, by decide⟩

theorem isUsable_a : ∀ name ∈ ["a"], IsUsable name :=
  List.forall_mem_singleton.mpr ⟨by decide, by decide⟩

/-- A message, and one that refers to it from another file. -/
def referring (package name : String) : List SchemaFile :=
  [lone "b.proto" "" { name, fields := [listField (.named (qualify package "A"))] },
   lone "a.proto" package { name := "A" }]

theorem hasUsableNames_referring (package name : String)
    (h : isIdentifier name = true) (hn : name ≠ "_") : HasUsableNames (referring package name) where
  identifiers := by
    rw [referring, List.forall_mem_cons, List.forall_mem_singleton]
    exact ⟨hasIdentifiers_lone (by simp) h (List.forall_mem_singleton.mpr isIdentifier_listField),
      hasIdentifiers_lone (by simp) (by decide) nofun⟩
  types := by
    rw [referring, List.forall_mem_cons, List.forall_mem_singleton, typeNames_lone, typeNames_lone]
    simpa using hn.symm

theorem flat_referring (package name : String) :
    ∀ f ∈ referring package name, f.module.segments.length = 1 := by
  rw [referring, List.forall_mem_cons, List.forall_mem_singleton]
  exact ⟨congrArg (·.segments.length) module_b, congrArg (·.segments.length) module_a⟩

theorem exists_isTable_referring (g : Generator) {package : String} (name : String)
    (hp : package ≠ "") (hn : isIdentifier name = true) :
    ∃ t, IsTable g (referring package name) t := by
  refine exists_isTable ?_ ?_ ?_
  · have hmodules : (referring package name).map (·.module) = [⟨["b"]⟩, ⟨["a"]⟩] := by
      rw [← module_a, ← module_b]
      rfl
    rw [hmodules]
    decide
  · rw [referring, List.forall_mem_cons, List.forall_mem_singleton]
    exact ⟨claimed_lone, claimed_lone⟩
  · have hnames : (definitions (referring package name)).map (·.1) =
        [name, qualify package "A"] := rfl
    rw [DistinctNames, hnames, List.nodup_cons, List.mem_singleton]
    refine ⟨?_, List.nodup_singleton _⟩
    rintro rfl
    have hdot : '.' ∈ (qualify package "A").toList := by
      simp [qualify, hp]
    cases forall_part hn '.' hdot

namespace IsTable

variable {package name : String} {t : SymbolTable}

theorem get?_referred (ht : IsTable g (referring package name) t) :
    t.get? (qualify package "A") = some ⟨⟨["a"]⟩, ["A"], .message⟩ := by
  refine ht.get? (qualify package "A", ⟨⟨["a"]⟩, ["A"], .message⟩) ?_
  rw [referring, definitions, List.flatMap_cons, List.flatMap_cons, definitions_lone,
    definitions_lone, module_a, typeName_A]
  exact List.mem_cons_of_mem _ List.mem_cons_self

theorem get?_referrer (ht : IsTable g (referring package name) t) :
    t.get? (qualify "" name) = some ⟨⟨["b"]⟩, [typeName name], .message⟩ := by
  refine ht.get? (qualify "" name, ⟨⟨["b"]⟩, [typeName name], .message⟩) ?_
  rw [referring, definitions, List.flatMap_cons, definitions_lone, module_b]
  exact List.mem_cons_self

theorem isLocal_referrer (ht : IsTable g (referring package name) t) :
    t.isLocal (ModuleId.ofSchemaPath "b.proto") "A" = true ↔ "A" = typeName name := by
  rw [ht.isLocal, referring]
  constructor
  · rintro ⟨f, hf, hmodule, hname⟩
    rcases List.mem_cons.mp hf with rfl | hf
    · rwa [names_lone, List.mem_singleton] at hname
    · rw [List.mem_singleton.mp hf] at hmodule
      exact absurd (module_a.symm.trans (hmodule.trans module_b)) (by decide)
  · intro h
    refine ⟨_, List.mem_cons_self, rfl, ?_⟩
    rw [names_lone, List.mem_singleton]
    exact h

/-- The reference claims the name of the message unless it is taken. -/
theorem claimHead_referrer (ht : IsTable g (referring package name) t) {m : Message} :
    claimHead (g.context t (lone "b.proto" "" m)) ⟨⟨["a"]⟩, ["A"], .message⟩ {} =
      if "A" = typeName name then (false, {}) else (true, ⟨[("A", ⟨["a"]⟩)]⟩) := by
  have hforeign : ¬ (ModuleId.mk ["a"] == ModuleId.ofSchemaPath "b.proto") = true := by
    rw [module_b]
    decide
  rw [claimHead]
  refine (if_neg hforeign).trans ?_
  by_cases h : "A" = typeName name
  · rw [if_pos h]
    exact if_pos (ht.isLocal_referrer.mpr h)
  · rw [if_neg h]
    exact if_neg (mt ht.isLocal_referrer.mp h)

end IsTable

/-- A root that no type can begin with is of no use where a name is taken. -/
theorem exists_unusable_of_not_beginsType (hr : beginsType g.root = false) :
    ∃ files, HasUsableNames files ∧ generate g files = .error .unusableName := by
  obtain ⟨package, hp, hfree⟩ := g.types.exists_package
  obtain ⟨t, ht⟩ := exists_isTable_referring g "A" hp (by decide)
  refine ⟨_, hasUsableNames_referring package "A" (by decide) (by decide),
    generate_of_draft_error ht.build (draft_of_moduleFile_error ?_)⟩
  have hname : IsUsable (typeName "A") := isUsable_typeName (by decide) (by decide)
  refine moduleFile_lone_error ht.get?_referrer hname ?_
  refine structFields_listField_error (elementType_error ?_)
  have hnames := mapM_ofName (List.forall_mem_singleton.mpr isUsable_A)
  rw [reference?_defined (hfree "A") ht.get?_referred hnames, ht.claimHead_referrer,
    if_pos typeName_A.symm]
  exact bind_of_error (absoluteType_of_not_beginsType hr isUsable_a _) _

/-! ### Imports -/

theorem useItem_of_not_importable {root : Path} (hr : root.isImportable = false)
    {source : ModuleId} {names : List String} (hs : ∀ name ∈ source.segments, IsUsable name)
    (hn : ∀ name ∈ names, IsUsable name) :
    Imports.useItem root source names = .error .unusableName := by
  have himportable (idents : List Ident) : (root.appendIdents idents).isImportable = false := by
    have hall : (root.appendIdents idents).isImportable = (root.isImportable &&
        (idents.map (Segment.mk · .none)).all fun s => s.isPlain && s.ident.text != "Self") :=
      List.all_append
    rw [hall, hr, Bool.false_and]
  rw [Imports.useItem, bind_of_ok (path_of_isUsable hs root), bind_of_ok (mapM_ofName hn),
    Item.readBack?, himportable]
  rfl

/-- Where anything is imported from below such a root, the module cannot be finished. -/
theorem finish_of_not_importable {root : Path} (hr : root.isImportable = false)
    {resolution : Imports.Resolution} {index : Index} {d : Draft} {imports : Imports.ModuleImports}
    (hd : resolution.modules.lookup d.module = some imports) (hi : imports.HasUsableNames)
    (hne : imports.eager ≠ [])
    (hc : ∀ child ∈ (index.lookup d.module).getD [], IsUsable child) :
    finish root resolution index d = .error .unusableName := by
  have hrelocation : Imports.relocation root imports.deferred = .ok (imports.deferred.map
      fun e => (e.1, root.appendIdents (e.2.segments.map Ident.mk))) := by
    rw [Imports.relocation, mapM_ok, List.forall₂_map_right_iff, List.forall₂_same]
    exact fun e he => bind_of_ok (path_of_isUsable (hi.deferred e he) root) _
  obtain ⟨e, rest, heager⟩ := List.exists_cons_of_ne_nil hne
  have huses : imports.eager.mapM (fun e => Imports.useItem root e.1 e.2) =
      .error .unusableName := by
    have hfirst := hi.eager e (heager ▸ List.mem_cons_self)
    rw [heager, List.mapM_cons, bind_of_error (useItem_of_not_importable hr hfirst.1 hfirst.2)]
  rw [finish, bind_of_ok (childItems_of_isUsable hc), hd]
  refine bind_of_error ?_ _
  rw [Option.getD_some, Imports.inject, bind_of_ok hrelocation]
  exact bind_of_error huses _

/-- The drafts of the two files: the one imports the message of the other. -/
theorem drafts_referring (hf : g.library.fieldAttribute.text ≠ "try") {package : String}
    (hfree : ∀ name, g.types.extern? (qualify package name) = none) {t : SymbolTable}
    (ht : IsTable g (referring package "B") t) : ∃ referrer referred : Draft,
      (referring package "B").mapM (draft g t) = .ok [referrer, referred] ∧
      referrer.module = ⟨["b"]⟩ ∧ referrer.notes.imports = ⟨[("A", ⟨["a"]⟩)]⟩ ∧
      referred.module = ⟨["a"]⟩ ∧ referred.notes.imports = {} := by
  let m : Message := { name := "B", fields := [listField (.named (qualify package "A"))] }
  have hname : IsUsable (typeName "B") := isUsable_typeName (by decide) (by decide)
  have hnames := mapM_ofName (List.forall_mem_singleton.mpr isUsable_A)
  have hother : "A" ≠ typeName "B" := by
    rw [conversions.2.1.2.1]
    decide
  have hreference : (reference? (g.context t (lone "b.proto" "" m)) (qualify package "A") 0).run
      {} = .ok (some (.path (.ofNames false ["A"])), { imports := ⟨[("A", ⟨["a"]⟩)]⟩ }) := by
    rw [reference?_defined (hfree "A") ht.get?_referred hnames, ht.claimHead_referrer,
      if_neg hother]
    rfl
  have hfields := structFields_listField (qualify "" "B") (qualify "" "B")
    (elementType_named hreference)
  have hreferrer := draft_lone "b.proto" ht.get?_referrer hname hfields
    (List.all_cons.trans (by rw [isWellFormed_listOf hf _ rfl, List.all_nil, Bool.and_self]))
  have hreferred : draft g t (lone "a.proto" package { name := "A" }) = _ :=
    draft_lone "a.proto" ht.get?_referred isUsable_A rfl rfl
  exact ⟨_, _, mapM_ok.mpr (.cons hreferrer (.cons hreferred .nil)), module_b, rfl, module_a, rfl⟩

/-- What is imported from a module without imports is not deferred. -/
theorem notMem_demoted {referrer referred : Draft} {resolution : Imports.Resolution}
    (hkeys : ([referrer, referred].map (·.module)).Nodup)
    (hr : Imports.resolve (importSets [referrer, referred]) = .ok resolution)
    (hi : referred.notes.imports = {}) :
    (referrer.module, referred.module) ∉ resolution.demoted := by
  have hdistinct : referrer.module ≠ referred.module := by simpa using hkeys
  intro hdemoted
  obtain ⟨-, hback⟩ := Imports.reach_of_mem_demoted (nodup_importSets hkeys) hr hdemoted
  rcases hback.cases_head with heq | ⟨next, hdeclares, -⟩
  · exact hdistinct heq.symm
  · obtain ⟨⟨set, hset, name, hname⟩, -⟩ :=
      Imports.importsFrom_of_declares (nodup_importSets hkeys) hr hdeclares
    rw [(importSets_perm hkeys).mem_iff, List.map_cons, List.map_cons, List.map_nil, List.mem_cons,
      List.mem_singleton] at hset
    rcases hset with he | he
    · exact hdistinct (Prod.mk.inj he).1.symm
    · rw [(Prod.mk.inj he).2, hi] at hname
      cases hname

/-- A root that nothing can be imported from is of no use where something is. -/
theorem exists_unusable_of_not_importable (hf : g.library.fieldAttribute.text ≠ "try")
    (hr : g.root.isImportable = false) :
    ∃ files, HasUsableNames files ∧ generate g files = .error .unusableName := by
  obtain ⟨package, hp, hfree⟩ := g.types.exists_package
  obtain ⟨t, ht⟩ := exists_isTable_referring g "B" hp (by decide)
  refine ⟨_, hasUsableNames_referring package "B" (by decide) (by decide), ?_⟩
  obtain ⟨referrer, referred, hd, hmodule, himports, hsource, hnone⟩ := drafts_referring hf hfree ht
  have hflat := flat_referring package "B"
  refine generate_of_finish_error ht.build hd
    (fun parent child hstep => (ht.isLocal_of_stepToAny hflat hstep).2)
    fun resolution index hresolve hchildren => ?_
  have hkeys := nodup_draft_modules ht.build (mapM_ok.mp hd)
  have husable : referrer.notes.imports.HasUsableNames := by
    intro name source hmem
    rw [himports] at hmem
    obtain ⟨rfl, rfl⟩ := Prod.mk.inj (List.mem_singleton.mp hmem)
    exact ⟨isUsable_A, isUsable_a⟩
  refine finish_of_not_importable hr (lookup_of_mem_drafts hkeys hresolve List.mem_cons_self)
    (Imports.hasUsableNames_split husable ..) (fun hnil => ?_) ?_
  · have hmem : ("A", referred.module) ∈ referrer.notes.imports.entries := by
      rw [himports, hsource]
      exact List.mem_cons_self
    obtain ⟨names, hnames, -⟩ :=
      Imports.lookup_eager_split.mpr ⟨hmem, notMem_demoted hkeys hresolve hnone⟩
    rw [hnil] at hnames
    cases hnames
  · rw [ht.children_eq_nil hflat (by rw [hmodule]; exact List.cons_ne_nil _ _) hchildren]
    exact List.forall_mem_nil _

/-! ## Prefixes of clients -/

theorem le_length_typeName (name : String) :
    name.toList.length ≤ (typeName name).toList.length := by
  unfold typeName safeIdentifier
  split
  · simp
  · exact le_rfl

/-- A prefix makes a name longer, so the clients of a service are told apart. -/
theorem typeName_ne_suspendingName {asyncPrefix : String} (hp : asyncPrefix ≠ "") (s : Service) :
    typeName s.name ≠ SymbolTable.suspendingName asyncPrefix s := by
  intro he
  have hlength := le_length_typeName (asyncPrefix ++ typeName s.name)
  rw [SymbolTable.suspendingName] at he
  have hprefix : 0 < asyncPrefix.toList.length :=
    List.length_pos_iff.mpr fun hnil => hp (String.toList_eq_nil_iff.mp hnil)
  rw [← he, String.toList_append, List.length_append] at hlength
  omega

/-- A file with a service that does nothing. -/
def serving (name : String) : SchemaFile :=
  { path := "a.proto", package := "", services := [{ name, fullName := name }] }

theorem hasUsableNames_serving {name : String} (h : isIdentifier name = true) (hn : name ≠ "_") :
    HasUsableNames [serving name] where
  identifiers := by
    refine List.forall_mem_singleton.mpr ⟨by simp [serving], List.forall_mem_nil _, ?_, ?_⟩
    · intro p hp
      rw [SchemaFile.placedMessages, serving, placedMessages] at hp
      cases hp
    · exact List.forall_mem_singleton.mpr ⟨h, List.forall_mem_nil _⟩
  types := List.forall_mem_singleton.mpr fun hmem => hn (List.mem_singleton.mp hmem).symm

theorem exists_isTable_serving (hp : g.settings.asyncPrefix ≠ "") (s : Service) :
    ∃ t, IsTable g [serving s.name] t := by
  refine exists_isTable (List.nodup_singleton _) (List.forall_mem_singleton.mpr ⟨?_, nofun⟩)
    List.nodup_nil
  have hnames : (serving s.name).names g.settings.asyncPrefix =
      [typeName s.name, SymbolTable.suspendingName g.settings.asyncPrefix s] := rfl
  rw [hnames, List.nodup_cons, List.mem_singleton]
  exact ⟨typeName_ne_suspendingName hp s, List.nodup_singleton _⟩

/-- A prefix that does not begin the name of a client is of no use for the service. -/
theorem exists_unusable_of_client (hp : g.settings.asyncPrefix ≠ "") {s : Service}
    (hs : isIdentifier s.name = true) (hn : s.name ≠ "_")
    (h : Ident.ofText? (SymbolTable.suspendingName g.settings.asyncPrefix s) = none) :
    ∃ files, HasUsableNames files ∧ generate g files = .error .unusableName := by
  refine ⟨_, hasUsableNames_serving hs hn, ?_⟩
  obtain ⟨t, ht⟩ := exists_isTable_serving hp s
  refine generate_of_draft_error ht.build (draft_of_moduleFile_error ?_)
  let c := g.context t (serving s.name)
  let service : Service := { name := s.name, fullName := s.name }
  have hblocking : Ident.ofName (clientName c .blocking service) = .ok ⟨typeName s.name⟩ :=
    (isUsable_typeName hs hn).ofName
  have hsuspending : Ident.ofName (clientName c .suspending service) = .error .unusableName := by
    have hclient : clientName c .suspending service =
        SymbolTable.suspendingName g.settings.asyncPrefix s := rfl
    rw [Ident.ofName, hclient, h]
  have hmodule : moduleFile c (serving s.name) =
      (do return ⟨[sourceDoc "a.proto"], ← serviceItems c [service]⟩) := by
    simp [moduleFile, serving, allMessageItems, service]
  obtain ⟨items, hitems⟩ : ∃ items,
      (clientItems c .blocking service).run {} = .ok (items, {}) := by
    rw [clientItems, run_bind_of_ok (run_lift_of_ok hblocking)]
    exact ⟨_, rfl⟩
  rw [hmodule]
  refine run_bind_of_error ?_
  rw [serviceItems, run_bind_of_ok hitems]
  exact run_bind_of_error (run_bind_of_error (run_lift_of_error hsuspending))

/-! ## Types of fields -/

/-- A type of which something is not known is of no use for the fields that it is given to. -/
theorem exists_unprintable (hf : g.library.fieldAttribute.text ≠ "try") {type : FieldType} {t : Ty}
    (ht : g.types.given? type = some t) (hw : t.all wellFormed = true)
    (hk : (t.relocate []).all known = false) :
    ∃ files, HasUsableNames files ∧ generate g files = .error .unprintable := by
  let m : Message := { name := "A", fields := [listField type] }
  refine ⟨[lone "a.proto" "" m], ⟨List.forall_mem_singleton.mpr ?_, ?_⟩, ?_⟩
  · exact hasIdentifiers_lone (by simp) (by decide)
      (List.forall_mem_singleton.mpr isIdentifier_listField)
  · refine List.forall_mem_singleton.mpr ?_
    rw [typeNames_lone]
    decide
  obtain ⟨table, htable⟩ : ∃ table, IsTable g [lone "a.proto" "" m] table :=
    exists_isTable (List.nodup_singleton _) (List.forall_mem_singleton.mpr claimed_lone)
      (List.nodup_singleton _)
  have hname : IsUsable (typeName "A") := isUsable_typeName (by decide) (by decide)
  have hget : table.get? (qualify "" "A") =
      some ⟨ModuleId.ofSchemaPath "a.proto", [typeName "A"], .message⟩ :=
    htable.get? (_, _) List.mem_cons_self
  have hdraft := draft_lone (g := g) "a.proto" hget hname
    (structFields_listField (qualify "" "A") _ (elementType_given ht))
    (List.all_cons.trans (by rw [isWellFormed_listOf hf _ hw, List.all_nil, Bool.and_self]))
  have hflat : ∀ f ∈ [lone "a.proto" "" m], f.module.segments.length = 1 :=
    List.forall_mem_singleton.mpr (congrArg (·.segments.length) module_a)
  have hd := mapM_ok.mpr (.cons hdraft .nil)
  refine generate_of_finish_error htable.build hd
    (fun parent child hstep => (htable.isLocal_of_stepToAny hflat hstep).2)
    fun resolution index hresolve hchildren => ?_
  have hlookup := lookup_of_mem_drafts (nodup_draft_modules htable.build (mapM_ok.mp hd)) hresolve
    List.mem_cons_self
  have hnone : (index.lookup (ModuleId.ofSchemaPath "a.proto")).getD [] = [] :=
    htable.children_eq_nil hflat (by rw [module_a]; exact List.cons_ne_nil _ _) hchildren
  have hchild : childItems ((index.lookup (ModuleId.ofSchemaPath "a.proto")).getD []) = .ok [] := by
    rw [hnone]
    rfl
  rw [finish, bind_of_ok hchild, hlookup]
  -- Nothing is imported, so nothing stands above the structure and its types are relocated nowhere.
  refine (bind_of_ok rfl _).trans (bind_of_error (if_neg fun hknown => ?_) _)
  have hfield : ((Ty.global ["std", "vec", "Vec"] t).relocate []).all known = true :=
    (Bool.and_eq_true_iff.mp (Bool.and_eq_true_iff.mp hknown).1).1
  rw [Ty.relocate_global] at hfield
  have harg : ((t.relocate []).all known && true) = true := (Bool.and_eq_true_iff.mp hfield).2
  rw [hk] at harg
  cases harg

/-! ## Types called by an underscore -/

/-- A message that refers to one that is nested in it and called by an underscore. -/
def underscoring (package : String) : SchemaFile :=
  lone "a.proto" package {
    name := "A"
    fields := [listField (.named (qualify (qualify package "A") "_"))]
    messages := [{ name := "_" }] }

theorem placedMessages_underscoring (package : String) : (underscoring package).placedMessages =
    [⟨package, [], {
        name := "A"
        fields := [listField (.named (qualify (qualify package "A") "_"))]
        messages := [{ name := "_" }] }⟩,
     ⟨qualify package "A", [moduleName "A"], { name := "_" }⟩] :=
  rfl

theorem hasIdentifiers_underscoring (package : String) : (underscoring package).HasIdentifiers where
  path := by simp [underscoring, lone]
  enums := List.forall_mem_nil _
  messages p hp := by
    have hA : isIdentifier "A" = true := by decide
    have hunderscore : isIdentifier "_" = true := by decide
    rw [placedMessages_underscoring, List.mem_cons, List.mem_singleton] at hp
    rcases hp with rfl | rfl
    · exact ⟨hA, List.forall_mem_singleton.mpr isIdentifier_listField, List.forall_mem_nil _⟩
    · exact ⟨hunderscore, List.forall_mem_nil _, List.forall_mem_nil _⟩
  services := List.forall_mem_nil _

theorem definitions_underscoring (package : String) : definitions [underscoring package] =
    [(qualify package "A", ⟨⟨["a"]⟩, ["A"], .message⟩),
     (qualify (qualify package "A") "_", ⟨⟨["a"]⟩, ["a", "_"], .message⟩)] := by
  have hraw : definitions [underscoring package] =
      [(qualify package "A", ⟨ModuleId.ofSchemaPath "a.proto", [typeName "A"], .message⟩),
       (qualify (qualify package "A") "_",
         ⟨ModuleId.ofSchemaPath "a.proto", [moduleName "A", typeName "_"], .message⟩)] := rfl
  obtain ⟨-, ⟨-, -, hunderscore⟩, hmodule⟩ := conversions
  rw [hraw, module_a, typeName_A, hunderscore, hmodule]

theorem exists_isTable_underscoring (g : Generator) {package : String} (hp : package ≠ "") :
    ∃ t, IsTable g [underscoring package] t := by
  refine exists_isTable (List.nodup_singleton _) (List.forall_mem_singleton.mpr ⟨?_, ?_⟩) ?_
  · have hnames : (underscoring package).names g.settings.asyncPrefix =
        [typeName "A", moduleName "A"] := rfl
    obtain ⟨-, -, hmodule⟩ := conversions
    rw [hnames, typeName_A, hmodule]
    decide
  · intro p hplaced
    rw [placedMessages_underscoring, List.mem_cons, List.mem_singleton] at hplaced
    rcases hplaced with rfl | rfl
    · exact List.nodup_singleton _
    · exact List.nodup_nil
  · rw [DistinctNames, definitions_underscoring]
    have hlonger : qualify package "A" ≠ qualify (qualify package "A") "_" := by
      intro he
      have hlength := congrArg (·.toList.length) he
      simp [qualify, hp] at hlength
    simpa using hlonger

/-- A nested type that is called by an underscore cannot be referred to, whatever the settings. -/
theorem exists_unusable_of_underscore (g : Generator) :
    ∃ files, (∀ f ∈ files, f.HasIdentifiers) ∧ generate g files = .error .unusableName := by
  obtain ⟨package, hp, hfree⟩ := g.types.exists_package
  obtain ⟨t, ht⟩ := exists_isTable_underscoring g hp
  refine ⟨[underscoring package],
    List.forall_mem_singleton.mpr (hasIdentifiers_underscoring package), ?_⟩
  refine generate_of_draft_error ht.build (draft_of_moduleFile_error ?_)
  have houter := ht.get? (qualify package "A", ⟨⟨["a"]⟩, ["A"], .message⟩)
    (by simp [definitions_underscoring])
  have hinner := ht.get? (qualify (qualify package "A") "_", ⟨⟨["a"]⟩, ["a", "_"], .message⟩)
    (by simp [definitions_underscoring])
  refine moduleFile_lone_error houter isUsable_A ?_
  refine structFields_listField_error (elementType_error ?_)
  have hmapped : g.types.extern? (qualify (qualify package "A") "_") = none := by
    have hjoined : qualify (qualify package "A") "_" = qualify package "A._" := by
      simp [qualify, hp, String.append_assoc]
    exact hjoined ▸ hfree _
  have hidents : ["a", "_"].mapM Ident.ofName = .ok [⟨"a"⟩, ⟨"_"⟩] :=
    ofNames_of_isIdentifier (by decide)
  have hclaim : (claimHead (g.context t (underscoring package)) ⟨⟨["a"]⟩, ["a", "_"], .message⟩
      {}).1 = true := by
    have hown : (ModuleId.mk ["a"] == ModuleId.ofSchemaPath "a.proto") = true := by
      rw [module_a]
      decide
    rw [claimHead]
    exact congrArg Prod.fst (if_pos hown)
  have hunfit : relativeType 0 [⟨"a"⟩, ⟨"_"⟩] = .error .unusableName := by
    rw [relativeType, if_neg (by decide), if_pos (by decide)]
  rw [reference?_defined hmapped hinner hidents, hclaim, if_pos rfl]
  exact bind_of_error hunfit _

/-! ## All accepted settings -/

/-- Names of the settings are usable for all schemas of usable names exactly if they can be put in
front of others. -/
theorem hasUsableNames_iff (hg : g.IsAccepted) : g.HasUsableNames ↔
    ∀ files, HasUsableNames files → generate g files ≠ .error .unusableName := by
  constructor
  · intro h files hfiles he
    have hyields : Yields (fun e => e ≠ .unusableName) (generate g files) fun _ => True :=
      generate_yields_of_names (fun e _ he => he) (fun _ => ⟨h, hfiles⟩)
        fun _ _ _ _ _ _ _ _ hbad => absurd nofun hbad
    exact hyields.1 _ he rfl
  · intro h
    have hnone (hbad : ∃ files, HasUsableNames files ∧ generate g files = .error .unusableName) :
        False := by
      obtain ⟨files, hfiles, he⟩ := hbad
      exact h files hfiles he
    refine ⟨?_, ?_, fun s hs hn => ?_⟩
    · by_contra hr
      exact hnone (exists_unusable_of_not_importable hg.fieldAttribute (Bool.eq_false_iff.mpr hr))
    · by_contra hr
      exact hnone (exists_unusable_of_not_beginsType (Bool.eq_false_iff.mpr hr))
    · by_contra hr
      exact hnone (exists_unusable_of_client hg.asyncPrefix hs hn
        (Option.not_isSome_iff_eq_none.mp hr))

/-- Once its settings are accepted, generation for schemas of usable names breaks off because of a
name for some of them, unless the root of the modules and the prefix of clients can be put in front
of names. If they can, and the types are sound and the library is found from the root, nothing that
goes wrong lies in the generated code; a type of which something is not known breaks it off where a
field has it. A type that is called by an underscore does so with any settings. -/
theorem generate_accepted {settings : Settings} (hg : Generator.ofSettings settings = .ok g) :
    (g.HasUsableNames ↔
      ∀ files, HasUsableNames files → generate g files ≠ .error .unusableName) ∧
    (g.HasUsableNames → g.library.IsGlobal →
      (∀ e ∈ g.types.scalars ++ g.types.externTypes, e.2.IsSound) →
      ∀ files, HasUsableNames files → ∀ e, generate g files = .error e → ¬ e.IsDefect) ∧
    (∀ type t, g.types.given? type = some t → t.all wellFormed = true →
      (t.relocate []).all known = false →
      ∃ files, HasUsableNames files ∧ generate g files = .error .unprintable) ∧
    ∃ files, (∀ f ∈ files, f.HasIdentifiers) ∧ generate g files = .error .unusableName := by
  have haccepted := Generator.IsAccepted.of_ofSettings hg
  refine ⟨hasUsableNames_iff haccepted, fun hnames hlibrary htypes files hfiles => ?_, ?_,
    exists_unusable_of_underscore g⟩
  · have hsettled : g.IsSettled := {
      toHasUsableNames := hnames
      types := fun e he => .given (htypes e he)
      library := hlibrary
      asyncPrefix := haccepted.asyncPrefix }
    exact (faultless_of_usableNames hsettled hfiles).1
  · exact fun type t ht hw hk => exists_unprintable haccepted.fieldAttribute ht hw hk

/-- What the settings are read into. -/
def reading (settings : Settings) : Generator :=
  (Generator.ofSettings settings).toOption.getD plain

theorem ofSettings_reading {settings : Settings} (h : Generator.ofSettings settings = .ok g) :
    Generator.ofSettings settings = .ok (reading settings) ∧ reading settings = g := by
  have hreading : reading settings = g := by
    rw [reading, h]
    rfl
  exact ⟨hreading ▸ h, hreading⟩

/-- The reading of settings that keep the library. -/
theorem reading_of_runtime (settings : Settings) {types : TypeMap} {root : Path}
    (hruntime : settings.runtime = {}) (htypes : TypeMap.ofSettings settings = .ok types)
    (hroot : Path.read? settings.moduleRoot = some root)
    (hasync : (Ident.read? settings.asyncPrefix).isSome = true) (hne : settings.asyncPrefix ≠ "") :
    Generator.ofSettings settings = .ok (reading settings) ∧ (reading settings).types = types ∧
      (reading settings).root = root ∧ (reading settings).settings = settings := by
  obtain ⟨library, hlibrary, -⟩ := SupportLibrary.exists_default
  obtain ⟨asyncPrefix, hasync⟩ := Option.isSome_iff_exists.mp hasync
  obtain ⟨hread, hreading⟩ := ofSettings_reading
    (Generator.ofSettings_of_library htypes (hruntime ▸ hlibrary) hroot hasync hne)
  rw [hreading] at hread ⊢
  exact ⟨hread, rfl, rfl, rfl⟩

/-- A root whose last name has arguments. -/
def genericRoot : Settings :=
  { moduleRoot := "crate::gen<u8>" }

/-- A prefix with a blank behind it. -/
def blankPrefix : Settings :=
  { asyncPrefix := "Async " }

/-- A scalar with a type that is read, but not laid out. -/
def unknownScalar : Settings :=
  { scalars := [("int32", "dyn* Send")] }

theorem generate_accepted_unsafe :
    (Generator.ofSettings {} = .ok (reading {}) ∧
      ∀ files, HasUsableNames files → generate (reading {}) files ≠ .error .unusableName) ∧
    (Generator.ofSettings genericRoot = .ok (reading genericRoot) ∧ ∃ files,
      HasUsableNames files ∧ generate (reading genericRoot) files = .error .unusableName) ∧
    (Generator.ofSettings blankPrefix = .ok (reading blankPrefix) ∧ ∃ files,
      HasUsableNames files ∧ generate (reading blankPrefix) files = .error .unusableName) ∧
    Generator.ofSettings unknownScalar = .ok (reading unknownScalar) ∧ ∃ files,
      HasUsableNames files ∧ generate (reading unknownScalar) files = .error .unprintable := by
  obtain ⟨_, hread, -⟩ := Generator.exists_default
  obtain ⟨hdefault, -⟩ := ofSettings_reading hread
  have hasync : (Ident.read? "Async").isSome = true := by decide +kernel
  obtain ⟨crate, hcrate⟩ := Option.isSome_iff_exists.mp
    (show (Path.read? "crate").isSome = true by decide +kernel)
  obtain ⟨generic, hgenericRead, hunfit⟩ : ∃ root, Path.read? "crate::gen<u8>" = some root ∧
      (!root.isImportable) = true :=
    (Option.any_eq_true ..).mp (by decide +kernel)
  obtain ⟨hgeneric, -, hroot, -⟩ :=
    reading_of_runtime genericRoot rfl rfl hgenericRead hasync (by decide)
  obtain ⟨hblank, -, -, hsettings⟩ :=
    reading_of_runtime blankPrefix rfl rfl hcrate (by decide +kernel) (by decide)
  obtain ⟨types, htypesRead, hscalar⟩ := exists_of_any
    (show (TypeMap.ofSettings unknownScalar).toOption.any (fun types =>
      (types.given? (.scalar "int32")).any fun t =>
        t.all wellFormed && !(t.relocate []).all known) = true by decide +kernel)
  obtain ⟨hunknown, htypes, -, -⟩ :=
    reading_of_runtime unknownScalar rfl htypesRead hcrate hasync (by decide)
  refine ⟨⟨hdefault, ?_⟩, ⟨hgeneric, ?_⟩, ⟨hblank, ?_⟩, hunknown, ?_⟩
  · refine (generate_accepted hdefault).1.mp ?_
    exact (Generator.isSettled_of_default hdefault).toHasUsableNames
  · by_contra hnone
    have husable := (generate_accepted hgeneric).1.mpr fun files hfiles he =>
      hnone ⟨files, hfiles, he⟩
    rw [← hroot, husable.importable] at hunfit
    cases hunfit
  · by_contra hnone
    have husable := (generate_accepted hblank).1.mpr fun files hfiles he =>
      hnone ⟨files, hfiles, he⟩
    have hclient := husable.clients { name := "S", fullName := "S" } (by decide) (by decide)
    rw [hsettings] at hclient
    revert hclient
    decide +kernel
  · obtain ⟨t, ht, htest⟩ := (Option.any_eq_true ..).mp hscalar
    rw [Bool.and_eq_true, Bool.not_eq_true'] at htest
    exact (generate_accepted hunknown).2.2.1 _ t (htypes ▸ ht) htest.1 htest.2

end Package

end SchemaBindings
