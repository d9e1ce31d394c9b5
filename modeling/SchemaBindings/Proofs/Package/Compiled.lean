import SchemaBindings.Proofs.Package.Failures

/-!
Packages for compiled schema files. However the definitions of the files are nested, and with or
without a package, every reference between their descriptors leads to what it names.
-/

namespace SchemaBindings

/-- At any place of a module a full name has a type of what stands for it. Only names can be in the
way, and none is if they are usable. -/
def Binding.Context.Resolves (c : Context) (usable : Prop) (fullName : String) : Prop :=
  ∀ depth notes, SoundImports c notes.imports →
    (∃ t notes', (reference? c fullName depth).run notes = .ok (some t, notes') ∧
      Refers c notes'.imports depth fullName t) ∨
    (reference? c fullName depth).run notes = .error .unusableName ∧ ¬ usable

/-- What is known is resolved. -/
theorem Binding.Context.Knows.resolves {c : Context} {usable : Prop} {fullName : String}
    (h : c.Knows fullName) (hc : usable → c.HasUsableNames) : c.Resolves usable fullName := by
  intro depth notes hsound
  let allowed (e : Failure) : Prop := e = .unusableName ∧ ¬ usable
  have hyields : Yields allowed (reference? c fullName depth) fun o =>
      c.Knows fullName → o.isSome = true :=
    reference?_yields (fun hbad => hc (not_not.mp fun hnot => hbad ⟨rfl, hnot⟩)) fullName depth
  cases hrun : (reference? c fullName depth).run notes with
  | error e =>
    obtain ⟨rfl, hbad⟩ := (hyields notes).1 e hrun
    exact .inr ⟨rfl, hbad⟩
  | ok r =>
    obtain ⟨answer, notes'⟩ := r
    obtain ⟨t, rfl⟩ := Option.isSome_iff_exists.mp ((hyields notes).2 _ hrun h)
    obtain ⟨-, -, hrefers⟩ := reference?_ensures c fullName depth notes _ _ hrun hsound
    exact .inl ⟨t, notes', rfl, hrefers _ (.refl _) t rfl⟩

namespace Package

variable {g : Generator} {files : List SchemaFile}

/-- Generation leaves nothing unresolved if every full name that a file refers to is mapped to a
type or is that of a definition. -/
theorem generate_resolves (hn : DistinctNames files) (h : ∀ f ∈ files, ∀ name ∈ f.references,
    (g.types.extern? name).isSome = true ∨ name ∈ (definitions files).map (·.1)) :
    Yields (fun e => ¬ e.IsUnresolved) (generate g files) fun _ => True := by
  refine generate_yields_of_names (fun e he _ => he) (fun hbad => absurd not_false hbad) ?_
  intro symbols hs f hf name hname _ _ _
  refine (h f hf name hname).imp_right fun hdefined => ?_
  obtain ⟨⟨_, symbol⟩, hmem, rfl⟩ := List.mem_map.mp hdefined
  have hget := ((SymbolTable.build_ok hs).1.get?_eq_some hn).mpr hmem
  exact Option.isSome_iff_exists.mpr ⟨symbol, hget⟩

/-! ## References between descriptors -/

/-- A text refers to a definition of the descriptors or to a full name that is mapped to another
type: it is the full name behind a dot. Full names do not begin with a dot themselves. -/
def IsReference (g : Generator) (sources : List (String × Descriptor.File)) (text : String) :
    Prop :=
  (∃ s ∈ sources, ∃ p ∈ s.2.places, text = "." ++ s.2.fullName p) ∨
    ∃ e ∈ g.types.externTypes, text = "." ++ e.1 ∧ e.1.toList.head? ≠ some '.'

instance (g : Generator) (sources : List (String × Descriptor.File)) (text : String) :
    Decidable (IsReference g sources text) :=
  inferInstanceAs (Decidable (_ ∨ _))

open Descriptor (schemaFiles withoutLeadingDots_dot)

section References

variable {sources : List (String × Descriptor.File)} {s : String × Descriptor.File}
  {p : Descriptor.Place} {text : String} {table : SymbolTable}

theorem mem_definitions_schemaFiles (hnames : ∀ s ∈ sources, s.2.HasIdentifiers)
    (hs : s ∈ sources) (hp : p ∈ s.2.places) :
    (s.2.fullName p, p.symbol (ModuleId.ofSchemaPath s.1)) ∈ definitions (schemaFiles sources) := by
  rw [Descriptor.definitions_schemaFiles hnames]
  exact List.mem_flatMap.mpr ⟨s, hs, List.mem_map_of_mem hp⟩

theorem withoutLeadingDots_fullName (hnames : ∀ s ∈ sources, s.2.HasIdentifiers)
    (hs : s ∈ sources) (hp : p ∈ s.2.places) :
    withoutLeadingDots ("." ++ s.2.fullName p) = s.2.fullName p :=
  withoutLeadingDots_dot (s.2.fullName_head? (hnames s hs) hp)

/-- What is behind the dot is mapped to a type or defined. -/
theorem IsReference.isKnown (h : IsReference g sources text)
    (hnames : ∀ s ∈ sources, s.2.HasIdentifiers) :
    (g.types.extern? (withoutLeadingDots text)).isSome = true ∨
      withoutLeadingDots text ∈ (definitions (schemaFiles sources)).map (·.1) := by
  rcases h with ⟨s, hs, p, hp, rfl⟩ | ⟨e, he, rfl, hdot⟩
  · rw [withoutLeadingDots_fullName hnames hs hp]
    exact .inr (List.mem_map_of_mem (mem_definitions_schemaFiles hnames hs hp))
  · rw [withoutLeadingDots_dot hdot, TypeMap.extern?]
    exact .inl (mem_keys_iff_lookup.mp (List.mem_map_of_mem he))

theorem IsReference.resolves (h : IsReference g sources text)
    (hnames : ∀ s ∈ sources, s.2.HasIdentifiers) (hn : DistinctNames (schemaFiles sources))
    (hd : table.Describes g.settings.asyncPrefix (schemaFiles sources)) (f : SchemaFile) :
    (g.context table f).Resolves (g.HasUsableNames ∧ HasUsableNames (schemaFiles sources))
      (withoutLeadingDots text) := by
  have hknows : (g.context table f).Knows (withoutLeadingDots text) := by
    refine (h.isKnown hnames).imp_right fun hdefined => ?_
    obtain ⟨⟨_, symbol⟩, hmem, hname⟩ := List.mem_map.mp hdefined
    rw [← hname]
    exact Option.isSome_iff_exists.mpr ⟨symbol, (hd.get?_eq_some hn).mpr hmem⟩
  exact hknows.resolves fun ⟨hg, hfiles⟩ => hg.context hd hfiles f

end References

/-- Whatever is generated for descriptors, no reference between them stays unresolved: each of them
is found in the table of symbols at the place of the definition that it names, and has a type of
that in its module, or the type that it is mapped to. -/
theorem generate_compiled {sources : List (String × Descriptor.File)}
    (hnames : ∀ s ∈ sources, s.2.HasIdentifiers) (hdistinct : Descriptor.DistinctNames sources)
    (hreferences : ∀ s ∈ sources, ∀ text ∈ s.2.references, IsReference g sources text) :
    (∀ owner field name,
      generate g (schemaFiles sources) ≠ .error (.unresolvedType owner field name)) ∧
    ∀ table, SymbolTable.build (schemaFiles sources) g.settings.asyncPrefix = .ok table →
      ∀ s ∈ sources,
        (s.2.convert s.1).references = s.2.references.map withoutLeadingDots ∧
        ∀ text ∈ s.2.references,
          (∀ s' ∈ sources, ∀ p ∈ s'.2.places, text = "." ++ s'.2.fullName p →
            table.get? (withoutLeadingDots text) =
              some (p.symbol (ModuleId.ofSchemaPath s'.1))) ∧
          (g.context table (s.2.convert s.1)).Resolves
            (g.HasUsableNames ∧ HasUsableNames (schemaFiles sources))
            (withoutLeadingDots text) := by
  have hn : DistinctNames (schemaFiles sources) :=
    Descriptor.distinctNames_schemaFiles hnames hdistinct
  refine ⟨fun owner field name he => ?_, fun table htable s hs => ?_⟩
  · refine (generate_resolves hn ?_).1 _ he trivial
    intro f hf name hname
    obtain ⟨s, hs, rfl⟩ := List.mem_map.mp hf
    rw [s.2.references_convert s.1] at hname
    obtain ⟨text, htext, rfl⟩ := List.mem_map.mp hname
    exact (hreferences s hs text htext).isKnown hnames
  · have hdescribes := (SymbolTable.build_ok htable).1
    refine ⟨s.2.references_convert s.1, fun text htext => ⟨?_, ?_⟩⟩
    · rintro s' hs' p hp rfl
      rw [withoutLeadingDots_fullName hnames hs' hp]
      exact (hdescribes.get?_eq_some hn).mpr (mem_definitions_schemaFiles hnames hs' hp)
    · exact (hreferences s hs text htext).resolves hnames hn hdescribes _

/-- A file without a package, in which a message and an enum are nested, and one whose package is
called like a message of the first file. -/
def overlapping : List (String × Descriptor.File) :=
  [("a.proto", {
      messages := [{
        name := "A"
        fields := [
          { name := "b", number := 1, kind := .message, typeName := ".A.B" },
          { name := "e", number := 2, kind := .enum, typeName := ".A.B.E" },
          { name := "at", number := 3, kind := .message, typeName := ".google.protobuf.Timestamp" }]
        messages := [{ name := "B", enums := [{ name := "E", values := [⟨"ZERO", 0⟩] }] }] }]
      services := [{
        name := "S", methods := [{ name := "get", inputType := ".A", outputType := ".A.C" }] }] }),
    ("c.proto", {
      package := "A"
      messages := [{
        name := "C"
        fields := [{ name := "e", number := 1, kind := .enum, typeName := ".A.B.E" }] }] })]

/-- The types of the default settings. -/
def mapping : Generator :=
  { plain with types := ⟨TypeMap.defaultScalars, TypeMap.defaultExternTypes⟩ }

theorem hasUsableNames_mapping : mapping.HasUsableNames where
  importable := by decide +kernel
  root := by decide
  clients _ hs _ := (Naming.isUsable_suspendingName (by decide) hs).isSome_ofText?

theorem generate_compiled_overlapping : (∀ s ∈ overlapping, s.2.HasIdentifiers) ∧
    Descriptor.DistinctNames overlapping ∧
    (∀ s ∈ overlapping, ∀ text ∈ s.2.references, IsReference mapping overlapping text) ∧
    (mapping.HasUsableNames ∧ HasUsableNames (schemaFiles overlapping)) ∧
    (∀ owner field name,
      generate mapping (schemaFiles overlapping) ≠ .error (.unresolvedType owner field name)) ∧
    ∃ table, SymbolTable.build (schemaFiles overlapping) mapping.settings.asyncPrefix = .ok table ∧
      table.get? "A.B.E" = some ⟨⟨["a"]⟩, ["a", "b", "E"], .enum⟩ ∧
      ∀ s ∈ overlapping, ∀ text ∈ s.2.references,
        (mapping.context table (s.2.convert s.1)).Resolves True (withoutLeadingDots text) := by
  have hnames : ∀ s ∈ overlapping, s.2.HasIdentifiers := by decide +kernel
  have hdistinct : Descriptor.DistinctNames overlapping := by decide +kernel
  have hreferences : ∀ s ∈ overlapping, ∀ text ∈ s.2.references,
      IsReference mapping overlapping text := by decide +kernel
  have husable : mapping.HasUsableNames ∧ HasUsableNames (schemaFiles overlapping) :=
    ⟨hasUsableNames_mapping, by decide +kernel, by decide +kernel⟩
  have hbuild : SymbolTable.build (schemaFiles overlapping) mapping.settings.asyncPrefix =
      .ok ((SymbolTable.build (schemaFiles overlapping) "Async").toOption.getD {}) :=
    ok_getD {} (by decide +kernel)
  obtain ⟨hresolved, htable⟩ := generate_compiled hnames hdistinct hreferences
  have hget := ((htable _ hbuild _ (.tail _ (.head _))).2 ".A.B.E" (by decide +kernel)).1 _
    (.head _) ⟨["A", "B"], "E", .enum⟩ (by decide +kernel) (by decide +kernel)
  refine ⟨hnames, hdistinct, hreferences, husable, hresolved, _, hbuild, hget,
    fun s hs text htext => ?_⟩
  have hall := ((htable _ hbuild s hs).2 text htext).2
  rw [eq_true husable] at hall
  exact hall

end Package

end SchemaBindings
