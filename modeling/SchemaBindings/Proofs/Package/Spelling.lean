import SchemaBindings.Proofs.Naming.Spelling
import SchemaBindings.Proofs.Package.Index

/-!
The paths of schema files whose modules can be named in generated code. Names of modules are never
keywords, but they are identifiers only where the names in the path can be spelled; otherwise
neither the path of the module nor the index of the package can be made.
-/

namespace SchemaBindings

open Code Naming Package

/-! ## Names that have to be identifiers -/

/-- Names become identifiers one by one, or none does. -/
theorem Code.Ident.mapM_ofName_map {α : Type} (f : Ident → α) (names : List String) :
    (names.mapM fun name => f <$> ofName name) =
      if ∀ name ∈ names, (ofText? name).isSome = true then
        .ok (names.map fun name => f ⟨name⟩)
      else .error .unusableName := by
  split
  · next hall =>
    rw [mapM_ok, List.forall₂_map_right_iff, List.forall₂_same]
    intro name hn
    rw [ofName_of_isSome (hall name hn)]
    rfl
  · next hsome =>
    have hfails {name : String} (hn : ¬ (ofText? name).isSome = true) :
        f <$> ofName name = .error .unusableName := by
      rw [ofName_of_eq_none (Option.not_isSome_iff_eq_none.mp hn)]
      rfl
    simp only [not_forall] at hsome
    obtain ⟨name, hmem, hn⟩ := hsome
    refine mapM_error (fun other _ => ?_) hmem fun b hok => ?_
    · by_cases hother : (ofText? other).isSome = true
      · exact .inl ⟨f ⟨other⟩, by rw [ofName_of_isSome hother]; rfl⟩
      · exact .inr (hfails hother)
    · rw [hfails hn] at hok
      cases hok

namespace Package

/-- The declarations of child modules are made exactly if all their names are identifiers. -/
theorem childItems_eq (children : List String) :
    childItems children =
      if ∀ child ∈ children, (Ident.ofText? child).isSome = true then
        .ok (children.map fun child => .moduleFile ⟨child⟩)
      else .error .unusableName :=
  Ident.mapM_ofName_map Item.moduleFile children

/-- The children in an index are the segments of the modules that it leads to. -/
theorem exists_child_iff {symbols : SymbolTable} {modules : List ModuleId} {index : Index}
    (h : indexOf symbols modules = .ok index) {child : String} :
    (∃ e ∈ index, child ∈ e.2) ↔ ∃ m ∈ modules, child ∈ m.segments := by
  have hadded := indexOf_ok h
  have hgroup (parent : ModuleId) : InGroup index parent child ↔ StepToAny modules parent child :=
    (hadded.inGroup parent child).trans (or_iff_right List.not_mem_nil)
  constructor
  · rintro ⟨e, he, hchild⟩
    have hkeys := (hadded.sorted ⟨.nil, nofun⟩).nodup_keys
    obtain ⟨m, hm, hstep⟩ := (hgroup e.1).mp (inGroup_of_mem hkeys he hchild)
    exact ⟨m, hm, (stepTo_iff.mp hstep).subset (by simp)⟩
  · rintro ⟨m, hm, hchild⟩
    obtain ⟨front, rest, hsegments⟩ := List.append_of_mem hchild
    have hstep : StepTo m ⟨front⟩ child := stepTo_iff.mpr ⟨rest, by simp [hsegments]⟩
    obtain ⟨children, he, hmem⟩ := ((hgroup ⟨front⟩).mpr ⟨m, hm, hstep⟩).exists_mem
    exact ⟨_, he, hmem⟩

end Package

namespace ModuleId

/-- The names in the path of a schema file that its module is called by: those of its directories
and its own without the extension. -/
def namesIn (path : String) : List String :=
  FilePath.names (FilePath.components path).dropLast ++ (FilePath.stem? path).toList

/-- All names in the path of a schema file can be spelled. -/
def IsSpelled (path : String) : Prop :=
  ∀ name ∈ namesIn path, isSpellable name = true

instance (path : String) : Decidable (IsSpelled path) :=
  inferInstanceAs (Decidable (∀ name ∈ namesIn path, isSpellable name = true))

theorem mem_segments_ofSchemaPath {path segment : String} :
    segment ∈ (ofSchemaPath path).segments ↔ ∃ name ∈ namesIn path, moduleName name = segment :=
  List.mem_map

theorem forall_segments_iff {path : String} :
    (∀ segment ∈ (ofSchemaPath path).segments, (Ident.ofText? segment).isSome = true) ↔
      IsSpelled path := by
  simp only [mem_segments_ofSchemaPath, IsSpelled, ← isSome_ofText?_moduleName]
  constructor
  · exact fun h name hn => h _ ⟨name, hn, rfl⟩
  · rintro h - ⟨name, hn, rfl⟩
    exact h name hn

/-- The path of a module is made exactly if all names in the path of its schema file can be
spelled. -/
theorem path_ofSchemaPath (path : String) (root : Code.Path) :
    (ofSchemaPath path).path root =
      if IsSpelled path then .ok (root.appendIdents ((ofSchemaPath path).segments.map Ident.mk))
      else .error .unusableName := by
  have hnames := Ident.mapM_ofName_map id (ofSchemaPath path).segments
  simp only [id_map, id, forall_segments_iff] at hnames
  rw [ModuleId.path, hnames]
  split <;> rfl

/-- The declarations of all child modules are made exactly if all names in the paths of the schema
files can be spelled. -/
theorem childItems_of_index {paths : List String} {symbols : SymbolTable} {index : Index}
    (h : indexOf symbols (paths.map ofSchemaPath) = .ok index) :
    (∀ e ∈ index, ∃ items, childItems e.2 = .ok items) ↔ ∀ path ∈ paths, IsSpelled path := by
  have hitems (children : List String) : (∃ items, childItems children = .ok items) ↔
      ∀ child ∈ children, (Ident.ofText? child).isSome = true := by
    rw [childItems_eq]
    split
    · next hall => exact iff_of_true ⟨_, rfl⟩ hall
    · next hsome => exact iff_of_false nofun hsome
  have hchild (child : String) : (∃ e ∈ index, child ∈ e.2) ↔
      ∃ path ∈ paths, child ∈ (ofSchemaPath path).segments :=
    (exists_child_iff h).trans (by simp)
  simp only [hitems, ← forall_segments_iff]
  constructor
  · intro hall path hpath segment hsegment
    obtain ⟨e, he, hmem⟩ := (hchild segment).mpr ⟨path, hpath, hsegment⟩
    exact hall e he segment hmem
  · intro hall e he child hmem
    obtain ⟨path, hpath, hsegment⟩ := (hchild child).mp ⟨e, he, hmem⟩
    exact hall path hpath child hsegment

/-- The module of a schema file is never called by a keyword. Its segments are identifiers exactly
if all names in the path of the file can be spelled: the letters and digits of each begin with one
that can begin an identifier, or with a digit of ASCII, and go on with some that can stand inside.
Then the path of the module is made below any root, and so are the declarations of child modules in
the index of any such files; otherwise both break off. -/
theorem ofSchemaPath_spelled (root : Code.Path) :
    (∀ path,
      (∀ segment ∈ (ofSchemaPath path).segments,
        isReserved segment = false ∧ segment ∉ keywords) ∧
      ((∀ segment ∈ (ofSchemaPath path).segments, hasIdentifierShape segment.toList = true) ↔
        IsSpelled path) ∧
      (ofSchemaPath path).path root =
        if IsSpelled path then .ok (root.appendIdents ((ofSchemaPath path).segments.map Ident.mk))
        else .error .unusableName) ∧
    ∀ (paths : List String) (symbols : SymbolTable) (index : Index),
      indexOf symbols (paths.map ofSchemaPath) = .ok index →
      ((∀ e ∈ index, ∃ items, childItems e.2 = .ok items) ↔ ∀ path ∈ paths, IsSpelled path) ∧
      ∀ e ∈ index, ∀ failure, childItems e.2 = .error failure → failure = .unusableName := by
  refine ⟨fun path => ⟨?notKeyword, ?identifier, path_ofSchemaPath path root⟩,
    fun paths symbols index h => ⟨childItems_of_index h, ?panics⟩⟩
  case notKeyword =>
    intro segment hsegment
    obtain ⟨name, -, rfl⟩ := mem_segments_ofSchemaPath.mp hsegment
    exact ⟨isReserved_usableIdentifier (by decide), moduleName_notMem_keywords name⟩
  case identifier =>
    rw [← forall_segments_iff]
    refine forall₂_congr fun segment hsegment => ?_
    obtain ⟨name, -, rfl⟩ := mem_segments_ofSchemaPath.mp hsegment
    rw [hasIdentifierShape_moduleName, isSome_ofText?_moduleName]
  case panics =>
    intro e _ failure hfailure
    rw [childItems_eq] at hfailure
    split at hfailure
    · cases hfailure
    · exact (Except.error.inj hfailure).symm

/-- The module of a file that is called by a digit of another script has no path, and the root of
the module tree cannot declare it. -/
theorem ofSchemaPath_spelled_digits :
    ¬ IsSpelled "٣.proto" ∧ (ofSchemaPath "٣.proto").path (.ofNames false ["crate"]) =
        .error .unusableName ∧
      indexOf {} (["b.proto", "٣.proto"].map ofSchemaPath) = .ok [(⟨[]⟩, ["b", "٣"])] ∧
      ¬ ∀ e ∈ [((⟨[]⟩ : ModuleId), ["b", "٣"])], ∃ items, childItems e.2 = .ok items := by
  obtain ⟨hpaths, hindex⟩ := ofSchemaPath_spelled (.ofNames false ["crate"])
  have hspelled : ¬ IsSpelled "٣.proto" := by decide +kernel
  have hmade : indexOf {} (["b.proto", "٣.proto"].map ofSchemaPath) = .ok [(⟨[]⟩, ["b", "٣"])] := by
    decide +kernel
  obtain ⟨-, -, hpath⟩ := hpaths "٣.proto"
  refine ⟨hspelled, by rw [hpath, if_neg hspelled], hmade, fun hall => ?_⟩
  exact hspelled ((hindex _ _ _ hmade).1.mp hall "٣.proto" (by simp))

end ModuleId

end SchemaBindings
