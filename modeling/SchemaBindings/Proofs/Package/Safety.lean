import SchemaBindings.Proofs.Binding.Settled
import SchemaBindings.Proofs.Package.Assembly
import SchemaBindings.Proofs.Package.Failures
import SchemaBindings.Proofs.Package.Spelling

/-!
Generation with the default settings never fails for a reason that lies in the generated code, as
long as no message, enum or service is called by an underscore alone. Such a name is kept for the
type, which it cannot be.
-/

namespace SchemaBindings

open Code Naming

/-! ## The default settings -/

/-- A generator whose code is always settled. -/
structure Generator.IsSettled (g : Generator) : Prop extends g.HasUsableNames where
  types : ∀ e ∈ g.types.scalars ++ g.types.externTypes, e.2.Settled
  library : g.library.IsGlobal
  asyncPrefix : g.settings.asyncPrefix ≠ ""

/-- Whether the types of a generator are simple and all that its library has is found from the
root. -/
def Generator.isSimple (g : Generator) : Bool :=
  (g.types.scalars ++ g.types.externTypes).all (·.2.isSimple) &&
    (g.library.paths.all Path.isGlobal && g.library.types.all Ty.isSimple &&
      g.library.fieldAttribute.text != "try") &&
    (g.root.isImportable && Binding.beginsType g.root) && isIdentifier g.settings.asyncPrefix

theorem Generator.IsSettled.of_isSimple {g : Generator} (h : g.isSimple = true) :
    g.IsSettled := by
  simp only [isSimple, Bool.and_eq_true, List.all_eq_true, bne_iff_ne] at h
  obtain ⟨⟨⟨htypes, ⟨hpaths, hlibrary⟩, hattribute⟩, hroot, hbegins⟩, hprefix⟩ := h
  refine {
    importable := hroot
    root := hbegins
    clients := fun s hs _ => (isUsable_suspendingName hprefix hs).isSome_ofText?
    types := fun e he => Ty.settled_of_isSimple (htypes e he)
    library := ⟨hpaths, fun t ht => Ty.settled_of_isSimple (hlibrary t ht),
      hattribute⟩
    asyncPrefix := ?_ }
  intro hempty
  rw [hempty] at hprefix
  cases hprefix

/-- Settings are accepted if what they have besides a known library can be read. -/
theorem Generator.ofSettings_of_library {s : Settings} {types : TypeMap} {library : SupportLibrary}
    {root : Path} {asyncPrefix : Ident} (htypes : TypeMap.ofSettings s = .ok types)
    (hlibrary : SupportLibrary.ofSettings s.runtime = .ok library)
    (hroot : Path.read? s.moduleRoot = some root)
    (hasync : Ident.read? s.asyncPrefix = some asyncPrefix) (hne : s.asyncPrefix ≠ "") :
    ofSettings s = .ok ⟨s, types, library, root⟩ := by
  have hrootRead : Settings.readText "module_root" Path.read? s.moduleRoot = .ok root := by
    rw [Settings.readText, hroot]
  have hasyncRead :
      Settings.readText "async_prefix" Ident.read? s.asyncPrefix = .ok asyncPrefix := by
    rw [Settings.readText, hasync]
  have hfilled : ¬ s.asyncPrefix.isEmpty = true := by
    simpa using hne
  rw [ofSettings, bind_of_ok htypes, bind_of_ok hlibrary, bind_of_ok hrootRead, if_neg hfilled]
  exact bind_of_ok hasyncRead _

theorem Generator.exists_default : ∃ g, ofSettings {} = .ok g ∧ g.isSimple = true := by
  obtain ⟨library, hlibrary, hsimple⟩ := SupportLibrary.exists_default
  obtain ⟨root, hroot, hbegins⟩ : ∃ root, Path.read? "crate" = some root ∧
      (root.isImportable && Binding.beginsType root) = true :=
    (Option.any_eq_true ..).mp (by decide +kernel)
  obtain ⟨asyncPrefix, hasync⟩ := Option.isSome_iff_exists.mp
    (show (Ident.read? "Async").isSome = true by decide +kernel)
  have htypes : (TypeMap.defaultScalars ++ TypeMap.defaultExternTypes).all (·.2.isSimple) =
      true := by decide
  have hidentifier : isIdentifier "Async" = true := by decide
  refine ⟨_, ofSettings_of_library rfl hlibrary hroot hasync (by decide), ?_⟩
  rw [isSimple, hsimple, hbegins, Bool.and_true]
  exact Bool.and_eq_true_iff.mpr ⟨htypes, hidentifier⟩

theorem Generator.settings_of_ofSettings {settings : Settings} {g : Generator}
    (h : ofSettings settings = .ok g) : g.settings = settings := by
  obtain ⟨types, -, h⟩ := bind_ok.mp h
  obtain ⟨library, -, h⟩ := bind_ok.mp h
  obtain ⟨root, -, h⟩ := bind_ok.mp h
  split at h
  · cases h
  · obtain ⟨_, -, h⟩ := bind_ok.mp h
    cases h
    rfl

theorem Generator.isSettled_of_default {g : Generator} (h : ofSettings {} = .ok g) :
    g.IsSettled := by
  obtain ⟨g', hg', hsimple⟩ := exists_default
  cases h.symm.trans hg'
  exact .of_isSimple hsimple

/-! ## What modules are generated against -/

variable {files : List SchemaFile} {f : SchemaFile}

theorem Code.Path.isPlain_of_isImportable {p : Path} (h : p.isImportable = true) :
    p.isPlain = true :=
  List.all_eq_true.mpr fun s hs => (Bool.and_eq_true_iff.mp (List.all_eq_true.mp h s hs)).1

/-- What a module is generated against, once all symbols are known. -/
theorem Generator.IsSettled.context {g : Generator} (hg : g.IsSettled) {symbols : SymbolTable}
    (hs : symbols.Describes g.settings.asyncPrefix files) (h : SchemaBindings.HasUsableNames files)
    (f : SchemaFile) : (g.context symbols f).IsSettled where
  toHasUsableNames := hg.toHasUsableNames.context hs h f
  types := hg.types
  library := hg.library
  rootPlain := Path.isPlain_of_isImportable hg.importable
  asyncPrefix := hg.asyncPrefix

/-! ## Packages -/

namespace Package

variable {g : Generator} {symbols : SymbolTable}

/-- The items of a draft are settled, and its imports are those of usable names. -/
structure Draft.IsSettled (d : Draft) : Prop where
  items : ∀ i ∈ d.file.items, i.Settled
  imports : d.notes.imports.HasUsableNames

theorem draft_faultless (hc : (g.context symbols f).IsSettled) (h : f.HasIdentifiers)
    (hs : ∀ s ∈ f.services, s.name ≠ "_") : Faultless (draft g symbols f) Draft.IsSettled := by
  unfold draft
  refine .bind (Binding.moduleFile_faultless hc h hs {}) fun r hraw hitems => ?_
  refine .bind (.of_eq_ok (File.checked_of_settled hitems) rfl) fun file _ hfile => .ok ?_
  obtain ⟨hsound, -⟩ :=
    Binding.moduleFile_ensures (g.context symbols f) f {} r.1 r.2 hraw (.empty _)
  exact ⟨hfile ▸ hitems, hsound.hasUsableNames hc.symbols⟩

/-- The declarations of child modules with usable names. -/
theorem childItems_of_isUsable {children : List String} (h : ∀ child ∈ children, IsUsable child) :
    childItems children = .ok (children.map fun child => .moduleFile ⟨child⟩) := by
  rw [childItems_eq, if_pos fun child hc => (h child hc).isSome_ofText?]

theorem finish_faultless {root : Path} (hroot : root.isImportable = true) {d : Draft}
    (hd : d.IsSettled) {resolution : Imports.Resolution} {index : Index}
    (hr : resolution.modules.lookup d.module =
      some (Imports.split resolution.demoted d.module d.notes.imports))
    (hc : ∀ child ∈ (index.lookup d.module).getD [], IsUsable child) :
    Faultless (finish root resolution index d) fun _ => True := by
  unfold finish
  rw [hr]
  refine .bind (.of_eq_ok (childItems_of_isUsable hc) rfl) fun children _ hchildren => ?_
  refine .bind (Imports.inject_yields (fun _ => hroot)
    (fun _ => Imports.hasUsableNames_split hd.imports ..) _) fun file _ hfile => ?_
  obtain ⟨r, uses, hplain, huses, rfl⟩ := hfile
  have hknown : itemsAreKnown (uses ++ relocateItems r (children ++ d.file.items)) = true := by
    rw [itemsAreKnown_eq, relocateItems_eq, List.all_eq_true]
    intro item hitem
    rw [List.map_append, List.mem_append, List.mem_append, List.mem_map, List.mem_map] at hitem
    rcases hitem with hitem | ⟨child, hchild, rfl⟩ | ⟨raw, hraw, rfl⟩
    · exact huses item hitem
    · obtain ⟨name, -, rfl⟩ := List.mem_map.mp (hchildren ▸ hchild)
      rfl
    · exact (hd.items raw hraw).isKnown (hplain (Path.isPlain_of_isImportable hroot))
  exact .bind (.of_eq_ok (if_pos hknown) rfl) fun _ _ _ => .ok trivial

theorem indexFile_faultless (parent : ModuleId) {children : List String}
    (h : ∀ child ∈ children, IsUsable child) :
    Faultless (indexFile parent children) fun _ => True := by
  unfold indexFile
  refine .bind (.of_eq_ok (childItems_of_isUsable h) rfl) fun items _ hitems => ?_
  have hread : itemsReadBack? items = some items := by
    rw [← hitems, itemsReadBack?_eq_some, List.forall₂_map_left_iff, List.forall₂_map_right_iff,
      List.forall₂_same]
    intro child hc
    rw [Item.readBack?, (h child hc).isName]
    rfl
  have hchecked (docs : List String) : (File.mk docs items).checked = .ok ⟨docs, items⟩ := by
    rw [File.checked, hread]
  exact .bind (.of_eq_ok (hchecked _) rfl) fun _ _ _ => .ok trivial

/-- What can go wrong with schemas of usable names is never the generated code. -/
theorem faultless_of_usableNames (hg : g.IsSettled) (h : HasUsableNames files) :
    Faultless (generate g files) fun _ => True := by
  have husable {parent : ModuleId} {children : List String}
      (hc : ∀ child ∈ children, StepToAny (files.map (·.module)) parent child) :
      ∀ child ∈ children, IsUsable child := fun child hchild =>
    (hc child hchild).isUsable h.identifiers
  refine generate_yields (P := Draft.IsSettled) (fun e he => he.not_isDefect)
    (fun symbols hs f hf => ?_) (fun resolution index d hd hlookup hc => ?_)
    fun parent children hc => indexFile_faultless parent (husable hc)
  · have hc := hg.context (SymbolTable.build_ok hs).1 h f
    refine draft_faultless hc (h.identifiers f hf) fun s hmem => ?_
    have htype := SchemaFile.mem_typeNames.mpr (.inr (.inr ⟨s, hmem, rfl⟩))
    exact ne_of_mem_of_not_mem htype (h.types f hf)
  · exact finish_faultless hg.importable hd hlookup (husable hc)

/-! ### Types called by an underscore -/

/-- Of a module that is well-formed every message, enum and service has a name that it can have. -/
theorem notMem_keywords_of_draft (hs : SymbolTable.build files g.settings.asyncPrefix = .ok symbols)
    (hn : Unambiguous files) (hf : f ∈ files) {d : Draft} (hd : draft g symbols f = .ok d)
    {name : String} (hname : name ∈ f.typeNames) : typeName name ∉ keywords := by
  obtain ⟨-, -, raw, items, hraw, hitems, -⟩ := draft_ok hd
  have hensures := Binding.moduleFile_ensures (g.context symbols f) f
  obtain ⟨-, -, hemitted⟩ := hensures {} raw d.notes hraw (.empty _)
  have hmirrored := (hemitted _ (.refl _)).mirrored (SymbolTable.build_ok hs).1 hn hf
  have hkeywords {path : List String} {item : Item} (h : ItemAt raw.items path item) {step : String}
      (hstep : step ∈ path) : step ∉ keywords :=
    ItemAt.notMem_keywords (forall₂_finished (r := []) hitems) h hstep
  have htaken {path : List String} (h : f.Takes g.settings.asyncPrefix path) {step : String}
      (hstep : step ∈ path) : step ∉ keywords := by
    obtain ⟨item, hi⟩ := hmirrored.takes_iff.mp h
    exact hkeywords hi hstep
  rcases SchemaFile.mem_typeNames.mp hname with ⟨e, he, rfl⟩ | ⟨p, hp, rfl | ⟨e, he, rfl⟩⟩ |
    ⟨service, hservice, rfl⟩
  · have hscope : typeName e.name ∈ scopeNames f.enums f.messages :=
      List.mem_append_left _ (List.mem_map.mpr ⟨e, he, rfl⟩)
    exact htaken (.top _ (List.mem_append_left _ hscope)) List.mem_cons_self
  · obtain ⟨_, _, _, hi, -⟩ := hmirrored.messages.structs p hp
    exact hkeywords hi (by simp [PlacedMessage.path])
  · have hinner : typeName e.name ∈ p.innerNames :=
      List.mem_append_left _ (List.mem_map.mpr ⟨e, he, rfl⟩)
    exact htaken (.nested p hp _ hinner) (List.mem_append_right _ List.mem_cons_self)
  · exact htaken (.top _ (clientName_mem_names hservice .blocking)) List.mem_cons_self

/-- A module whose items are made can only be refused as malformed. -/
theorem draft_of_made {made : File × Binding.Notes}
    (h : (Binding.moduleFile (g.context symbols f) f).run {} = .ok made) :
    (∃ d, draft g symbols f = .ok d) ∨ draft g symbols f = .error .malformedCode := by
  have hdraft : draft g symbols f = made.1.checked >>= fun file =>
      .ok ⟨f.module, f.path, file, made.2⟩ := by
    unfold draft
    exact congrArg (· >>= _) h
  rw [hdraft, File.checked]
  split
  · exact .inl ⟨_, rfl⟩
  · exact .inr rfl

/-- Nothing is generated for a schema with a type that is called by an underscore, and if everything
for it can be made the result is malformed. -/
theorem generate_of_underscore (h : ∀ f ∈ files, f.HasIdentifiers) (hf : f ∈ files)
    (hn : "_" ∈ f.typeNames) : (∀ p, generate g files ≠ .ok p) ∧
      ∀ table, SymbolTable.build files g.settings.asyncPrefix = .ok table →
        (∀ f ∈ files, ∃ made, (Binding.moduleFile (g.context table f) f).run {} = .ok made) →
        generate g files = .error .malformedCode := by
  have hrefused {table : SymbolTable}
      (hs : SymbolTable.build files g.settings.asyncPrefix = .ok table) (d : Draft) :
      draft g table f ≠ .ok d := fun hd =>
    notMem_keywords_of_draft hs (unambiguous_of_identifiers h) hf hd hn typeName_underscore
  constructor
  · intro p hp
    obtain ⟨s, hs, -⟩ := generate_ok.mp hp
    obtain ⟨d, -, hd⟩ := exists_mem_right hs.drafts hf
    exact hrefused hs.symbols d hd
  · intro table hs hmade
    have hdrafts : files.mapM (draft g table) = .error .malformedCode := by
      refine mapM_error (fun f hf => ?_) hf (hrefused hs)
      obtain ⟨made, hmade⟩ := hmade f hf
      exact draft_of_made hmade
    unfold generate
    rw [hs]
    dsimp only [bind, Except.bind]
    rw [hdrafts]

/-- With the default settings nothing that goes wrong with a schema of identifiers lies in the
generated code, unless a message, enum or service is called by an underscore alone, and then there
is never a package: such a name is kept, while whatever is made of names in any other place can be
used there. -/
theorem generate_faultless (hg : Generator.ofSettings {} = .ok g)
    (h : ∀ f ∈ files, f.HasIdentifiers) :
    ((∀ f ∈ files, "_" ∉ f.typeNames) → ∀ e, generate g files = .error e → ¬ e.IsDefect) ∧
    ((∃ f ∈ files, "_" ∈ f.typeNames) → (∀ p, generate g files ≠ .ok p) ∧
      ∀ table, SymbolTable.build files g.settings.asyncPrefix = .ok table →
        (∀ f ∈ files, ∃ made, (Binding.moduleFile (g.context table f) f).run {} = .ok made) →
        generate g files = .error .malformedCode) ∧
    ∀ name, isIdentifier name = true → IsUsable (fieldName name) ∧ IsUsable (variantName name) ∧
      IsUsable (methodName name) ∧ IsUsable (moduleName name) ∧
        (IsUsable (typeName name) ↔ name ≠ "_") := by
  refine ⟨fun hn => ?_, fun ⟨f, hf, hn⟩ => generate_of_underscore h hf hn, fun name hname => ?_⟩
  · exact (faultless_of_usableNames (Generator.isSettled_of_default hg) ⟨h, hn⟩).1
  · have hascii := ascii_of_isIdentifier hname
    refine ⟨isUsable_fieldName hascii, isUsable_variantName hascii, isUsable_methodName hascii,
      isUsable_moduleName hascii, ?_, isUsable_typeName hname⟩
    rintro hu rfl
    exact hu.free typeName_underscore

/-- The generator with the default settings. -/
def defaults : Generator :=
  (Generator.ofSettings {}).toOption.getD plain

/-- A message that is called by an underscore. -/
def underscored : List SchemaFile :=
  [{ path := "a.proto", package := "p", messages := [{ name := "_" }] }]

def underscoredSymbols : SymbolTable :=
  (SymbolTable.build underscored "Async").toOption.getD {}

theorem generate_faultless_underscored : Generator.ofSettings {} = .ok defaults ∧
    ((∀ f ∈ underscored, f.HasIdentifiers) ∧ (∃ f ∈ underscored, "_" ∈ f.typeNames) ∧
      generate defaults underscored = .error .malformedCode) ∧
    (∀ f ∈ crossing, f.HasIdentifiers) ∧ (∀ f ∈ crossing, "_" ∉ f.typeNames) ∧
      ∀ e, generate defaults crossing = .error e → ¬ e.IsDefect := by
  obtain ⟨g, hread, -⟩ := Generator.exists_default
  have hg : Generator.ofSettings {} = .ok defaults := ok_getD plain (by rw [hread]; rfl)
  have hunderscored : ∀ f ∈ underscored, f.HasIdentifiers := by decide +kernel
  have hnamed : ∃ f ∈ underscored, "_" ∈ f.typeNames := by decide +kernel
  have hcrossing : ∀ f ∈ crossing, f.HasIdentifiers := by decide +kernel
  have hfree : ∀ f ∈ crossing, "_" ∉ f.typeNames := by decide +kernel
  have hs : SymbolTable.build underscored defaults.settings.asyncPrefix =
      .ok underscoredSymbols := by
    rw [Generator.settings_of_ofSettings hg]
    exact ok_getD {} (by decide +kernel)
  have hmade : ∀ f ∈ underscored, ∃ made,
      (Binding.moduleFile (defaults.context underscoredSymbols f) f).run {} = .ok made :=
    List.forall_mem_singleton.mpr ⟨_, ok_getD (⟨[], []⟩, {}) (by decide +kernel)⟩
  have hmalformed := ((generate_faultless hg hunderscored).2.1 hnamed).2 _ hs hmade
  exact ⟨hg, ⟨hunderscored, hnamed, hmalformed⟩, hcrossing, hfree,
    (generate_faultless hg hcrossing).1 hfree⟩

end Package

end SchemaBindings
