import SchemaBindings.Proofs.Binding.Failures
import SchemaBindings.Proofs.Binding.Module
import SchemaBindings.Proofs.Code.Settled
import SchemaBindings.Proofs.Package.Index
import SchemaBindings.Proofs.Schema.Collisions

/-!
What generation fails with: a name that is taken, or what one of its steps fails with for a file, a
finished module or an index. Resolving the imports never fails. Of failures because of a name it is
said where the name comes from.
-/

namespace SchemaBindings

open Code Naming

variable {allowed : Failure → Prop}

/-! ## Imports -/

/-- What is imported and the modules that it is imported from have usable names. -/
def ImportSet.HasUsableNames (s : ImportSet) : Prop :=
  ∀ name source, (name, source) ∈ s.entries →
    IsUsable name ∧ ∀ segment ∈ source.segments, IsUsable segment

theorem Binding.SoundImports.hasUsableNames {c : Context} {imports : ImportSet}
    (h : SoundImports c imports)
    (hs : ∀ fullName s, c.symbols.get? fullName = some s → s.IsUsable) :
    imports.HasUsableNames := by
  intro name source hmem
  obtain ⟨fullName, s, hget, rfl, rfl⟩ := (h.importable name source hmem).definition
  exact ⟨(hs fullName s hget).head, (hs fullName s hget).module⟩

namespace Imports

/-- The names in resolved imports are usable. -/
structure ModuleImports.HasUsableNames (imports : ModuleImports) : Prop where
  deferred : ∀ e ∈ imports.deferred, ∀ name ∈ e.2.segments, IsUsable name
  eager : ∀ e ∈ imports.eager,
    (∀ name ∈ e.1.segments, IsUsable name) ∧ ∀ name ∈ e.2, IsUsable name

theorem hasUsableNames_split {set : ImportSet} (h : set.HasUsableNames) (demoted : List Edge)
    (m : ModuleId) : (split demoted m set).HasUsableNames where
  deferred e he := (h e.1 e.2 (mem_deferred_split he)).2
  eager := by
    intro e he
    obtain ⟨hne, hnames⟩ := mem_eager_split he
    obtain ⟨name, hname⟩ := List.exists_mem_of_ne_nil _ hne
    refine ⟨(h name e.1 (hnames name hname).1).2, fun name hmem => ?_⟩
    exact (h name e.1 (hnames name hmem).1).1

variable {root : Path}

theorem isImportable_appendIdents (hr : root.isImportable = true) {idents : List Ident}
    (h : ∀ name ∈ idents.map (·.text), IsUsable name) :
    (root.appendIdents idents).isImportable = true := by
  rw [Path.appendIdents, Path.isImportable, Path.segments, List.all_append]
  refine Bool.and_eq_true_iff.mpr ⟨hr, List.all_eq_true.mpr fun s hs => ?_⟩
  obtain ⟨ident, hident, rfl⟩ := List.mem_map.mp hs
  have hfree : ident.text ∉ keywords := (h _ (List.mem_map_of_mem hident)).free
  have hself : ident.text ≠ "Self" := fun he => hfree (he ▸ by decide)
  simpa [Segment.isPlain, Segment.ident] using hself

/-- Names can be imported if the modules are found behind a path that can be imported from. -/
theorem useItem_yields {source : ModuleId} {names : List String}
    (hr : ¬ allowed .unusableName → root.isImportable = true)
    (hs : ¬ allowed .unusableName → ∀ name ∈ source.segments, IsUsable name)
    (hn : ¬ allowed .unusableName → ∀ name ∈ names, IsUsable name) :
    Yields allowed (useItem root source names) fun item => item.isKnown = true := by
  unfold useItem
  refine (Binding.path_yields source root hs).bind fun p _ hp => ?_
  obtain ⟨segments, hsegments, rfl⟩ := hp
  refine (Binding.ofUsables_yields hn).bind fun idents _ hidents => ?_
  rw [Item.readBack?]
  split
  · next item hread =>
    split at hread <;> cases hread
    exact .ok rfl
  · next hread =>
    refine .error (by_contra fun hbad => ?_)
    have himportable := isImportable_appendIdents (hr hbad) (hsegments ▸ hs hbad)
    have hnames : idents.all Ident.isName = true := by
      refine List.all_eq_true.mpr fun ident hident => ?_
      exact (hn hbad _ (hidents ▸ List.mem_map_of_mem hident)).isName
    rw [himportable, hnames] at hread
    cases hread

theorem relocation_yields {deferred : List (String × ModuleId)}
    (h : ¬ allowed .unusableName → ∀ e ∈ deferred, ∀ name ∈ e.2.segments, IsUsable name) :
    Yields allowed (relocation root deferred) fun r => root.isPlain = true → r.IsPlain := by
  have hone (e : String × ModuleId) (he : e ∈ deferred) :
      Yields allowed (do return (e.1, ← e.2.path root)) fun entry : String × Path =>
        root.isPlain = true → entry.2.isPlain = true := by
    refine (Binding.path_yields e.2 root fun hn => h hn e he).bind fun p _ hp => .ok fun hr => ?_
    obtain ⟨idents, -, rfl⟩ := hp
    exact Path.isPlain_appendIdents hr idents
  have hall := Yields.mapM hone
  exact ⟨hall.1, fun r hr hplain e he => hall.2 r hr e he hplain⟩

/-- The imports are put above what the file has, and what is deferred is relocated in it. -/
theorem inject_yields {imports : ModuleImports}
    (hr : ¬ allowed .unusableName → root.isImportable = true)
    (hi : ¬ allowed .unusableName → imports.HasUsableNames) (f : File) :
    Yields allowed (inject root imports f) fun f' => ∃ (r : Relocation) (uses : List Item),
      (root.isPlain = true → r.IsPlain) ∧ (∀ item ∈ uses, item.isKnown = true) ∧
        f' = { f with items := uses ++ relocateItems r f.items } := by
  unfold inject
  refine (relocation_yields fun hn => (hi hn).deferred).bind fun r _ hplain => ?_
  refine .bind (.mapM fun e he => useItem_yields hr (fun hn => ((hi hn).eager e he).1)
    fun hn => ((hi hn).eager e he).2) fun uses _ huses => .ok ?_
  exact ⟨r, uses, hplain, huses, rfl⟩

end Imports

/-! ## Settings -/

/-- Names can be put behind the root of the modules and behind the prefix of clients. -/
structure Generator.HasUsableNames (g : Generator) : Prop where
  importable : g.root.isImportable = true
  root : Binding.beginsType g.root = true
  clients : ∀ s : Service, isIdentifier s.name = true → s.name ≠ "_" →
    (Ident.ofText? (SymbolTable.suspendingName g.settings.asyncPrefix s)).isSome = true

theorem Generator.HasUsableNames.context {g : Generator} (hg : g.HasUsableNames)
    {files : List SchemaFile} {symbols : SymbolTable}
    (hs : symbols.Describes g.settings.asyncPrefix files) (h : SchemaBindings.HasUsableNames files)
    (f : SchemaFile) : (g.context symbols f).HasUsableNames where
  symbols _ _ hget := h.ofDefinition (hs.mem_definitions hget)
  root := hg.root
  clients := hg.clients

/-! ## Stages -/

namespace Package

variable {g : Generator} {files : List SchemaFile} {f : SchemaFile} {symbols : SymbolTable}
  {P : Draft → Prop}

theorem checked_yields (h : allowed .malformedCode) (f : File) :
    Yields allowed f.checked fun _ => True := by
  unfold File.checked
  split
  · exact .ok trivial
  · exact .error h

/-- The draft of a file imports what its references claim. -/
theorem draft_yields (ha : Binding.Allows allowed (g.context symbols f))
    (h : ∀ name ∈ f.references, (g.context symbols f).Meets allowed name)
    (hi : ¬ allowed .unusableName → f.HasIdentifiers ∧ "_" ∉ f.typeNames) :
    Yields allowed (draft g symbols f) fun d =>
      ¬ allowed .unusableName → d.notes.imports.HasUsableNames := by
  unfold draft
  refine .bind (Binding.moduleFile_yields ha h hi {}) fun r hraw _ => ?_
  refine (checked_yields (ha.other _ trivial not_false nofun) _).bind fun file _ _ =>
    .ok fun hn => ?_
  obtain ⟨hsound, -⟩ :=
    Binding.moduleFile_ensures (g.context symbols f) f {} r.1 r.2 hraw (.empty _)
  exact hsound.hasUsableNames (ha.names hn).symbols

theorem childItems_yields {children : List String}
    (h : ¬ allowed .unusableName → ∀ child ∈ children, IsUsable child) :
    Yields allowed (childItems children) fun _ => True :=
  (Yields.mapM (Q := fun _ => True) fun child hc =>
    (Binding.ofUsable_yields fun hn => h hn child hc).map fun _ _ => trivial).weaken

theorem finish_yields (ho : allowed .unprintable) {root : Path} {resolution : Imports.Resolution}
    {index : Index} {d : Draft} (hr : ¬ allowed .unusableName → root.isImportable = true)
    (hi : ¬ allowed .unusableName →
      ((resolution.modules.lookup d.module).getD {}).HasUsableNames)
    (hc : ¬ allowed .unusableName →
      ∀ child ∈ (index.lookup d.module).getD [], IsUsable child) :
    Yields allowed (finish root resolution index d) fun _ => True := by
  unfold finish
  refine (childItems_yields hc).bind fun children _ _ => ?_
  refine (Imports.inject_yields hr hi _).bind fun file _ _ => ?_
  refine .bind (P := fun _ => True) ?_ fun _ _ _ => .ok trivial
  unfold File.printable
  split
  · exact .ok trivial
  · exact .error ho

theorem indexFile_yields (ho : allowed .malformedCode) (parent : ModuleId) {children : List String}
    (hc : ¬ allowed .unusableName → ∀ child ∈ children, IsUsable child) :
    Yields allowed (indexFile parent children) fun _ => True := by
  unfold indexFile
  refine (childItems_yields hc).bind fun items _ _ => ?_
  exact (checked_yields ho _).bind fun _ _ _ => .ok trivial

theorem stepToAny_of_index {symbols : SymbolTable} {modules : List ModuleId} {index : Index}
    (h : (if g.settings.moduleIndex then indexOf symbols modules else .ok []) = .ok index) :
    ∀ e ∈ index, ∀ child ∈ e.2, StepToAny modules e.1 child := by
  intro e he child hc
  split at h
  · have hadded := indexOf_ok h
    have hgroup := inGroup_of_mem (hadded.sorted ⟨.nil, nofun⟩).nodup_keys he hc
    exact ((hadded.inGroup e.1 child).mp hgroup).resolve_left List.not_mem_nil
  · cases h
    cases he

/-- What an index gives a module is one step below it. -/
theorem stepToAny_of_lookup {modules : List ModuleId} {index : Index}
    (h : ∀ e ∈ index, ∀ child ∈ e.2, StepToAny modules e.1 child) (module : ModuleId) :
    ∀ child ∈ (index.lookup module).getD [], StepToAny modules module child := by
  intro child hc
  obtain ⟨children, hmem, hchild⟩ := InGroup.exists_mem hc
  exact h _ hmem child hchild

/-- There is an index unless a child module has a name that its parent has otherwise. -/
theorem exists_index {symbols : SymbolTable} {modules : List ModuleId}
    (h : ∀ parent child, StepToAny modules parent child → symbols.isLocal parent child = false) :
    ∃ index, (if g.settings.moduleIndex then indexOf symbols modules else .ok []) = .ok index := by
  split
  · cases hindex : indexOf symbols modules with
    | ok index => exact ⟨index, rfl⟩
    | error e =>
      obtain ⟨parent, child, hstep, hlocal, -⟩ := indexOf_error hindex
      rw [h parent child hstep] at hlocal
      cases hlocal
  · exact ⟨[], rfl⟩

theorem index_yields (hcollision : ∀ e : Failure, e.IsCollision → allowed e)
    (symbols : SymbolTable) (modules : List ModuleId) :
    Yields allowed (if g.settings.moduleIndex then indexOf symbols modules else .ok [])
      fun index => ∀ e ∈ index, ∀ child ∈ e.2, StepToAny modules e.1 child := by
  refine ⟨fun e he => ?_, fun index => stepToAny_of_index⟩
  split at he
  · obtain ⟨parent, child, -, -, rfl⟩ := indexOf_error he
    exact hcollision _ trivial
  · cases he

/-- Steps to the modules of files with ASCII paths have usable names. -/
theorem StepToAny.isUsable (h : ∀ f ∈ files, f.HasIdentifiers) {parent : ModuleId} {child : String}
    (hstep : StepToAny (files.map (·.module)) parent child) : IsUsable child := by
  obtain ⟨m, hm, hstep⟩ := hstep
  obtain ⟨f, hf, rfl⟩ := List.mem_map.mp hm
  have hmem : child ∈ f.module.segments :=
    (stepTo_iff.mp hstep).subset (List.mem_append_right _ List.mem_cons_self)
  exact isUsable_segments (h f hf).path child hmem

/-- Generation fails in allowed ways only if the modules of files, the finished modules and the
files of the index do. -/
theorem generate_yields (hcollision : ∀ e : Failure, e.IsCollision → allowed e)
    (hdraft : ∀ symbols, SymbolTable.build files g.settings.asyncPrefix = .ok symbols →
      ∀ f ∈ files, Yields allowed (draft g symbols f) P)
    (hfinish : ∀ resolution index d, P d →
      resolution.modules.lookup d.module =
        some (Imports.split resolution.demoted d.module d.notes.imports) →
      (∀ child ∈ (index.lookup d.module).getD [],
        StepToAny (files.map (·.module)) d.module child) →
      Yields allowed (finish g.root resolution index d) fun _ => True)
    (hindex : ∀ parent children,
      (∀ child ∈ children, StepToAny (files.map (·.module)) parent child) →
      Yields allowed (indexFile parent children) fun _ => True) :
    Yields allowed (generate g files) fun _ => True := by
  unfold generate
  refine .bind ((SymbolTable.build_collides ..).mono hcollision) fun symbols hs _ => ?_
  refine .bind (.mapM (hdraft symbols hs)) fun drafts hd hdrafts => ?_
  have hmodules := modules_of_drafts (mapM_ok.mp hd)
  have hkeys := nodup_draft_modules hs (mapM_ok.mp hd)
  refine .bind (.of_eq_ok (Imports.resolve_eq_ok (nodup_importSets hkeys)) rfl)
    fun resolution hr _ => ?_
  dsimp only
  rw [ite_bind, hmodules]
  refine .bind (index_yields hcollision ..) fun index hi hsteps => ?_
  refine .bind (.mapM fun d hmem => hfinish resolution index d (hdrafts d hmem)
    (lookup_resolution hs (mapM_ok.mp hd) hr hmem) (stepToAny_of_lookup hsteps d.module))
    fun finished _ _ => ?_
  refine .bind (.mapM fun e he => hindex e.1 e.2 ?_) fun _ _ _ => .ok trivial
  exact hsteps e (List.mem_filter.mp he).1

/-- A file that nothing can be made for ends the generation. -/
theorem generate_of_draft_error {e : Failure} {rest : List SchemaFile}
    (hs : SymbolTable.build (f :: rest) g.settings.asyncPrefix = .ok symbols)
    (hd : draft g symbols f = .error e) : generate g (f :: rest) = .error e := by
  have hall : (f :: rest).mapM (draft g symbols) = .error e := by
    rw [List.mapM_cons, bind_of_error hd]
  rw [generate, bind_of_ok hs, bind_of_error hall]

/-- Drafts that have been made are finished, unless a child module has a name that its parent has
otherwise. -/
theorem generate_of_finish_error {e : Failure} {rest : List SchemaFile} {d : Draft}
    {drafts : List Draft}
    (hs : SymbolTable.build (f :: rest) g.settings.asyncPrefix = .ok symbols)
    (hd : (f :: rest).mapM (draft g symbols) = .ok (d :: drafts))
    (hi : ∀ parent child, StepToAny ((f :: rest).map (·.module)) parent child →
      symbols.isLocal parent child = false)
    (hf : ∀ resolution index,
      Imports.resolve (importSets (d :: drafts)) = .ok resolution →
      (∀ child ∈ (index.lookup d.module).getD [],
        StepToAny ((f :: rest).map (·.module)) d.module child) →
      finish g.root resolution index d = .error e) : generate g (f :: rest) = .error e := by
  have hdrafts := mapM_ok.mp hd
  have hmodules := modules_of_drafts hdrafts
  obtain ⟨resolution, hr⟩ : ∃ r, Imports.resolve (importSets (d :: drafts)) = .ok r :=
    ⟨_, Imports.resolve_eq_ok (nodup_importSets (nodup_draft_modules hs hdrafts))⟩
  obtain ⟨index, hindex⟩ := exists_index (g := g) (hmodules.symm ▸ hi)
  have hfinish := hf resolution index hr
    (stepToAny_of_lookup (hmodules ▸ stepToAny_of_index hindex) d.module)
  have hall : (d :: drafts).mapM (finish g.root resolution index) = .error e := by
    rw [List.mapM_cons, bind_of_error hfinish]
  rw [generate, bind_of_ok hs, bind_of_ok hd, bind_of_ok hr]
  dsimp only
  rw [ite_bind, bind_of_ok hindex, bind_of_error hall]

/-- Generation fails in its own ways only. It leaves a reference unresolved only if nothing stands
for it, and cannot use a name only if one that comes from the settings or the schema is to blame. -/
theorem generate_yields_ofGeneration
    (ho : ∀ e : Failure, e.OfGeneration g.settings.unimplemented → ¬ e.IsUnresolved →
      e ≠ .unusableName → allowed e)
    (hn : ¬ allowed .unusableName → g.HasUsableNames ∧ HasUsableNames files)
    (hr : ∀ symbols, SymbolTable.build files g.settings.asyncPrefix = .ok symbols →
      ∀ f ∈ files, ∀ name ∈ f.references, (g.context symbols f).Meets allowed name) :
    Yields allowed (generate g files) fun _ => True := by
  have hcollision (e : Failure) (he : e.IsCollision) : allowed e := by
    cases e <;> first | exact he.elim | exact ho _ trivial not_false nofun
  have hchildren {parent : ModuleId} {children : List String}
      (hc : ∀ child ∈ children, StepToAny (files.map (·.module)) parent child)
      (hbad : ¬ allowed .unusableName) : ∀ child ∈ children, IsUsable child := fun child hchild =>
    (hc child hchild).isUsable (hn hbad).2.identifiers
  refine generate_yields (P := fun d => ¬ allowed .unusableName → d.notes.imports.HasUsableNames)
    hcollision (fun symbols hs f hf => ?_) (fun resolution index d hd hlookup hc => ?_)
    fun parent children hc => ?_
  · have ha : Binding.Allows allowed (g.context symbols f) :=
      ⟨ho, fun hbad => (hn hbad).1.context (SymbolTable.build_ok hs).1 (hn hbad).2 f⟩
    exact draft_yields ha (hr symbols hs f hf) fun hbad =>
      ⟨(hn hbad).2.identifiers f hf, (hn hbad).2.types f hf⟩
  · refine finish_yields (ho _ trivial not_false nofun) (fun hbad => (hn hbad).1.importable)
      (fun hbad => ?_) (hchildren hc)
    rw [hlookup]
    exact Imports.hasUsableNames_split (hd hbad) ..
  · exact indexFile_yields (ho _ trivial not_false nofun) parent (hchildren hc)

/-- Of failures because of a name it is said where the name comes from; all others may happen. -/
theorem generate_yields_of_names
    (ho : ∀ e : Failure, ¬ e.IsUnresolved → e ≠ .unusableName → allowed e)
    (hn : ¬ allowed .unusableName → g.HasUsableNames ∧ HasUsableNames files)
    (hr : ∀ symbols, SymbolTable.build files g.settings.asyncPrefix = .ok symbols →
      ∀ f ∈ files, ∀ name ∈ f.references, (g.context symbols f).Meets allowed name) :
    Yields allowed (generate g files) fun _ => True :=
  generate_yields_ofGeneration (fun e _ => ho e) hn hr

/-- Whatever the schema, generation fails in its own ways only. -/
theorem generate_failure_ofGeneration {e : Failure} (h : generate g files = .error e) :
    e.OfGeneration g.settings.unimplemented := by
  have hall : Yields (·.OfGeneration g.settings.unimplemented) (generate g files) fun _ => True :=
    generate_yields_ofGeneration (fun _ he _ _ => he) (fun hbad => absurd trivial hbad)
      fun _ _ _ _ _ _ _ _ hbad => absurd trivial hbad
  exact hall.1 e h

end Package

end SchemaBindings
