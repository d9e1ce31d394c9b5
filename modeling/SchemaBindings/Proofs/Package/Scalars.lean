import SchemaBindings.Proofs.Code.Meaning
import SchemaBindings.Proofs.Package.TopNames

/-!
The types of scalar fields. They are written as they are registered, some of them by a bare name: so
they mean what they are registered to mean unless something else in the package is called so.
-/

namespace SchemaBindings

open Code

/-! ## Names that a package calls something by -/

/-- The names that the modules of a package have for what is in them: those of definitions, of the
modules of what is nested in messages, of clients, and of the modules of files. -/
inductive Coined (asyncPrefix : String) (files : List SchemaFile) : String → Prop
  | definition {d : Definition} (h : d ∈ definitions files) : Coined asyncPrefix files d.2.name
  | nested {f : SchemaFile} {p : PlacedMessage} (hf : f ∈ files) (hp : p ∈ f.placedMessages)
      (hn : p.message.hasNested = true) :
    Coined asyncPrefix files (Naming.moduleName p.message.name)
  | client {f : SchemaFile} {name : String} (hf : f ∈ files)
      (h : name ∈ clientNames asyncPrefix f.services) : Coined asyncPrefix files name
  | module {f : SchemaFile} {name : String} (hf : f ∈ files) (h : name ∈ f.module.segments) :
    Coined asyncPrefix files name

variable {asyncPrefix : String} {files : List SchemaFile}

/-- The first name of a path that leads through the parents of a message. -/
theorem coined_front {f : SchemaFile} (hf : f ∈ files) {p : PlacedMessage}
    (hp : p ∈ f.placedMessages) {name : String} (rest : List String)
    (hname : Coined asyncPrefix files name) :
    Coined asyncPrefix files ((p.parents ++ name :: rest).head?.getD "") := by
  cases hc : p.parents with
  | nil => exact hname
  | cons first others =>
    obtain ⟨q, hq, hnested, hfirst⟩ := exists_of_mem_parents f.messages hp
      (hc ▸ List.mem_cons_self)
    have hcoined : Coined asyncPrefix files first := hfirst ▸ .nested hf hq hnested
    exact hcoined

/-- The first name of a definition. -/
theorem coined_head {fullName : String} {s : Symbol} (h : (fullName, s) ∈ definitions files) :
    Coined asyncPrefix files s.head := by
  obtain ⟨f, hf, hd⟩ := mem_definitions.mp h
  cases hd with
  | enum e he =>
    exact .definition h
  | message p hp =>
    have hname : Coined asyncPrefix files (Symbol.name ⟨f.module, p.path, .message⟩) :=
      .definition h
    rw [Symbol.name, PlacedMessage.path, List.getLast?_concat] at hname
    exact coined_front hf hp [] hname
  | nestedEnum p hp e he =>
    have hnested : p.message.hasNested = true := by
      simp [Message.hasNested, List.ne_nil_of_mem he]
    rw [Symbol.head, PlacedMessage.inner, List.append_assoc]
    exact coined_front hf hp [Naming.typeName e.name] (.nested hf hp hnested)

theorem coined_of_definedName {c : Binding.Context}
    (hd : c.symbols.Describes asyncPrefix files) {fullName : String} {name : Ident}
    (h : Binding.definedName c fullName = .ok name) : Coined asyncPrefix files name.text := by
  unfold Binding.definedName at h
  split at h
  · cases h
  · next s hs =>
    rw [Ident.text_of_ofName h]
    exact .definition (hd.mem_definitions hs)

namespace Package

variable {g : Generator} {s : Stages} {f : SchemaFile} {m : GeneratedModule}

/-- The names of child modules. -/
theorem Stages.Succeed.coined_child (h : s.Succeed g files) {parent : ModuleId} {name : String}
    (hn : name ∈ (s.index.lookup parent).getD []) :
    Coined g.settings.asyncPrefix files name := by
  cases hl : s.index.lookup parent with
  | none => simp [hl] at hn
  | some children =>
    have hmem : name ∈ children := by simpa [hl] using hn
    obtain ⟨-, m, hm, hstep⟩ := h.index_spec.2 _ _ (mem_of_lookup hl) name hmem
    rw [modules_of_drafts h.drafts] at hm
    obtain ⟨f, hf, rfl⟩ := List.mem_map.mp hm
    obtain ⟨rest, hsegments⟩ := stepTo_iff.mp hstep
    exact .module hf (by simp [← hsegments])

theorem Assembly.coined_import (a : Assembly g s f m) (h : s.Succeed g files) {name : String}
    {source : ModuleId} (hentry : (name, source) ∈ a.imports.entries) :
    Coined g.settings.asyncPrefix files name := by
  obtain ⟨_, symbol, hget, -, rfl⟩ := (a.sound.importable name source hentry).definition
  exact coined_head (h.describes.mem_definitions hget)

/-- All names in the module of a file are coined. -/
theorem Assembly.allNames (a : Assembly g s f m) (h : s.Succeed g files) (hf : f ∈ files) :
    AllNames (Coined g.settings.asyncPrefix files) m.file.items := by
  have hbody : AllNames (Coined g.settings.asyncPrefix files) a.body := by
    refine AllNames.finished a.finished (a.emitted.allNames ?_ ?_ ?_)
    · exact fun fullName name hname => coined_of_definedName h.describes hname
    · exact fun p hp hnested => .nested hf hp hnested
    · exact fun name hname => .client hf hname
  have huses : AllNames (Coined g.settings.asyncPrefix files) a.uses := by
    refine .mk (fun name hn => ?_) fun attributes name inner hm => ?_
    · rw [a.introducedNames_uses.1] at hn
      obtain ⟨⟨source, names⟩, hgroup, hname⟩ := List.mem_flatMap.mp hn
      exact a.coined_import h ((Imports.mem_eager_split hgroup).2 name hname).1
    · obtain ⟨_, -, _, _, he, -⟩ := a.mem_uses hm
      cases he
  have hchildren : AllNames (Coined g.settings.asyncPrefix files) a.children := by
    obtain ⟨idents, htexts, hitems⟩ := childItems_ok a.childrenOk
    refine .mk (fun name hn => ?_) fun attributes name inner hm => ?_
    · rw [hitems, (introducedNames_moduleFiles idents).1, htexts] at hn
      exact h.coined_child hn
    · obtain ⟨_, he⟩ := a.mem_children hm
      cases he
  rw [a.items]
  exact huses.append (hchildren.append hbody)

/-! ## Fields of scalar kinds -/

theorem withCardinality_inj {t t' : Ty} (cardinality : Cardinality) :
    Binding.withCardinality t cardinality = Binding.withCardinality t' cardinality ↔ t = t' := by
  cases cardinality with
  | singular => rfl
  | optional => exact Ty.global_inj
  | repeated => exact Ty.global_inj

theorem withCardinality_meaning_iff {t t' : Ty} {scope scope' : List String}
    (cardinality : Cardinality) :
    (Binding.withCardinality t cardinality).meaning scope =
        (Binding.withCardinality t' cardinality).meaning scope' ↔
      t.meaning scope = t'.meaning scope' := by
  cases cardinality with
  | singular => rfl
  | optional => exact Ty.global_meaning_iff
  | repeated => exact Ty.global_meaning_iff

/-- How a type in a scope, `emitted`, compares with the type `registered` for scalars, of which the
bare name in it is `bare`. -/
structure KeepsMeaning (asyncPrefix : String) (files : List SchemaFile) (scope : List String)
    (bare : Option String) (registered emitted : Ty) : Prop where
  iff : emitted.meaning scope = registered.meaning [] ↔
    emitted = registered ∧ ∀ name, bare = some name → name ∉ scope
  of_free : (∀ name, bare = some name → ¬ Coined asyncPrefix files name) →
    emitted.meaning scope = registered.meaning []

/-- The type of a scalar field. -/
theorem Assembly.scalar (a : Assembly g s f m) (h : s.Succeed g files) (hf : f ∈ files)
    {path : List String} {here : List Item} (hscope : ScopeAt m.file.items path here) {t : Ty}
    (ht : IsScalar t) (cardinality : Cardinality) :
    KeepsMeaning g.settings.asyncPrefix files (introducedNames here) t.bareName?
      (Binding.withCardinality t cardinality)
      ((Binding.withCardinality t cardinality).relocate a.relocation) := by
  rw [Binding.relocate_withCardinality]
  constructor
  · rw [withCardinality_meaning_iff, withCardinality_inj]
    exact ht.meaning_iff
  · intro hfree
    rw [withCardinality_meaning_iff, ht.meaning_iff]
    constructor
    · refine ht.relocate_eq fun name hbare => ?_
      rcases a.lookup_relocation name with ⟨hnone, -⟩ | ⟨_, _, hentry, -⟩
      · exact hnone
      · exact absurd (a.coined_import h hentry) (hfree name hbare)
    · exact fun name hbare hmem => hfree name hbare (a.allNames h hf path here hscope name hmem)

/-- The structure of every message has its fields in order. The type of a scalar field means what is
registered for its kind exactly if it was not rewritten and nothing in the scope of the structure,
be it defined or imported there, is called by its bare name; nothing in the package being called so
is enough. -/
theorem scalar_keepsMeaning (hscalars : g.types.scalars = TypeMap.defaultScalars) {p : Package}
    (h : generate g files = .ok p) :
    ∀ f ∈ files, ∃ m ∈ p.modules, m.source = some f.path ∧ ∀ q ∈ f.placedMessages,
      ∃ here attributes name fields, ScopeAt m.file.items q.parents here ∧
        .struct attributes name fields ∈ here ∧
        List.Forall₂ (fun field emitted => ∀ kind, field.type = .scalar kind →
          ∃ t, TypeMap.defaultScalars.lookup kind = some t ∧
            KeepsMeaning g.settings.asyncPrefix files (introducedNames here) t.bareName?
              (Binding.withCardinality t field.cardinality) emitted.type)
          q.message.fields fields := by
  intro f hf
  obtain ⟨s, hs, rfl⟩ := generate_ok.mp h
  obtain ⟨m, hm, ⟨a⟩⟩ := hs.exists_assembly hf
  refine ⟨m, hm, a.source, fun q hq => ?_⟩
  obtain ⟨raw, attributes, name, fields, hraw, hstruct, hfields⟩ := a.emitted.exists_struct hq
  obtain ⟨body, hbody, hfinished⟩ := (reshapes_finished a.relocation).scopeAt_right a.finished hraw
  obtain ⟨item, hitem, hi⟩ := exists_mem_right hfinished hstruct
  obtain rfl := hi.of_struct
  have hitems : a.body ⊆ m.file.items := fun i hi => by
    rw [a.items]
    exact List.mem_append_right _ (List.mem_append_right _ hi)
  obtain ⟨here, hscope, hsub⟩ := hbody.mono hitems
  refine ⟨here, attributes, name, _, hscope, hsub hitem, ?_⟩
  rw [List.forall₂_map_right_iff]
  refine hfields.imp fun field emitted he kind hkind => ?_
  obtain ⟨element, helement, htype⟩ := he.type
  have hlookup : TypeMap.defaultScalars.lookup kind = some element := by
    rw [Binding.ElementOf, hkind] at helement
    exact hscalars ▸ helement
  refine ⟨element, hlookup, ?_⟩
  rw [StructField.relocate, htype]
  exact a.scalar hs hf hscope (isScalar_of_lookup hlookup) field.cardinality

/-- A generator that keeps to the default settings and to the types of scalars. -/
def plainScalars : Generator :=
  { plain with types := ⟨TypeMap.defaultScalars, []⟩ }

/-- A message called like the type of 32-bit integers beside one with such a field. -/
def capturing : List SchemaFile :=
  [{ path := "a.proto", package := "p"
     messages := [
       { name := "A", fields := [{ name := "n", type := .scalar "int32", number := 1 }] },
       { name := "i32" }] }]

def capturingSymbols : SymbolTable :=
  (SymbolTable.build capturing "Async").toOption.getD {}

def capturingDrafts : List Draft :=
  (capturing.mapM (draft plainScalars capturingSymbols)).toOption.getD []

theorem backEdges_capturing :
    Imports.backEdges (Imports.graphOf (importSets capturingDrafts)) = [] := by
  have hg : Imports.graphOf (importSets capturingDrafts) = [(⟨["a"]⟩, [])] := by decide +kernel
  rw [hg, Imports.backEdges_single]

/-- The module of the file. -/
def capturingModules : List GeneratedModule :=
  (capturingDrafts.mapM (finish plainScalars.root
    ⟨(importSets capturingDrafts).map fun (m, set) => (m, Imports.split [] m set), []⟩
    [])).toOption.getD []

/-- The field that is registered to be a number holds the message instead. -/
theorem scalar_keepsMeaning_captured : ∃ p, generate plainScalars capturing = .ok p ∧
    ∃ m ∈ p.modules, ∃ attributes name emitted,
      .struct attributes name [emitted] ∈ m.file.items ∧
        emitted.type.meaning (introducedNames m.file.items) ≠
          (TypeMap.primitive "i32").meaning [] := by
  have hs : SymbolTable.build capturing "Async" = .ok capturingSymbols :=
    ok_getD {} (by decide +kernel)
  have hd : capturing.mapM (draft plainScalars capturingSymbols) = .ok capturingDrafts :=
    ok_getD [] (by decide +kernel)
  have hdemoted : Imports.sortedEdges (Imports.backEdges (Imports.graphOf
      (importSets capturingDrafts))) = [] := by
    rw [backEdges_capturing, Imports.sortedEdges, List.mergeSort_nil]
  have hf : capturingDrafts.mapM (finish plainScalars.root
      ⟨(importSets capturingDrafts).map fun (m, set) => (m, Imports.split [] m set), []⟩ []) =
        .ok capturingModules := ok_getD [] (by decide +kernel)
  have h := generate_of_stages hs hd rfl (hdemoted ▸ hf) rfl
  refine ⟨_, h, ?_⟩
  have hall := scalar_keepsMeaning rfl h
  obtain ⟨m, hm, -, hmessages⟩ := hall _ List.mem_cons_self
  have hname : "i32" ∈ introducedNames m.file.items := by
    have hnames : (capturingModules.all fun m =>
        (introducedNames m.file.items).contains "i32") = true := by decide +kernel
    have hmem : m ∈ capturingModules := by simpa using List.mem_mergeSort.mp hm
    simpa using List.all_eq_true.mp hnames m hmem
  obtain ⟨here, attributes, name, fields, hscope, hstruct, hfields⟩ :=
    hmessages _ (mem_placedMessages_cons.mpr (.inl (mem_placed.mpr (.inl rfl))))
  cases hscope with
  | here =>
    obtain ⟨emitted, _, hfield, hnil, rfl⟩ := List.forall₂_cons_left_iff.mp hfields
    cases hnil
    obtain ⟨t, ht, hkeeps⟩ := hfield "int32" rfl
    obtain rfl : TypeMap.primitive "i32" = t := Option.some.inj ht
    refine ⟨m, hm, attributes, name, emitted, hstruct, fun he => ?_⟩
    exact (hkeeps.iff.mp he).2 "i32" rfl hname

end Package

end SchemaBindings
