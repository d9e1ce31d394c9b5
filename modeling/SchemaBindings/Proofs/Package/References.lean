import SchemaBindings.Proofs.Binding.Signature
import SchemaBindings.Proofs.Package.Leads

/-!
References in a generated package lead to what they name: however a reference was written, as one to
the same module, as an imported name, by its full path or by one that took the place of an import.
-/

namespace SchemaBindings

open Code

/-- The item that a definition of the given kind becomes. -/
inductive Code.Item.IsOf : SymbolKind → Item → Prop
  | message {attributes : List Attribute} {name : Ident} {fields : List StructField} :
    IsOf .message (.struct attributes name fields)
  | enum {attributes : List Attribute} {name : Ident} {variants : List Variant} :
    IsOf .enum (.enum attributes name variants)

namespace Binding

/-! ## Written paths -/

theorem relativeType_ok {depth : Nat} {idents : List Ident} {t : Ty}
    (hu : underscore ∉ idents) (h : relativeType depth idents = .ok t) :
    t = .path (.relative depth (idents.map (·.text))) := by
  unfold relativeType at h
  split at h
  · next hi =>
    rw [hi.2] at hu
    exact absurd List.mem_cons_self hu
  split at h
  · cases h
  · cases h
    simp [Path.relative, Path.ofNames, Function.comp_def]

theorem absoluteType_ok {root : Path} {module : ModuleId} {idents : List Ident} {t : Ty}
    (h : absoluteType root module idents = .ok t) : ∃ segments,
      segments.map (·.text) = module.segments ∧
        t = .path (root.appendIdents (segments ++ idents)) := by
  obtain ⟨p, hp, h⟩ := bind_ok.mp h
  obtain ⟨segments, hs, rfl⟩ := map_ok.mp hp
  dsimp only at h
  split at h
  · cases h
  · cases h
    exact ⟨segments, Ident.texts_of_mapM hs, by rw [Path.appendIdents_appendIdents]⟩

end Binding

namespace Package

variable {g : Generator} {files : List SchemaFile} {s : Stages}

/-! ## Where definitions stand -/

section Definitions

variable {f : SchemaFile} {m : GeneratedModule}

/-- What a file defines stands at its place in its module. -/
theorem Emission.exists_item (e : Emission g s f m) {fullName : String} {symbol : Symbol}
    (hd : f.Defines (fullName, symbol)) : symbol.module = f.module ∧
      ∃ item, ItemAt m.file.items symbol.path item ∧ item.IsOf symbol.kind ∧
        ∀ name ∈ symbol.path, name ∉ keywords := by
  have hreshapes := reshapes_finished e.relocation
  have hraw : symbol.module = f.module ∧
      ∃ raw, ItemAt e.raw symbol.path raw ∧ raw.IsOf symbol.kind := by
    cases hd with
    | enum en hen =>
      obtain ⟨item, hi, hitem⟩ := e.mirrored.enums en hen
      obtain ⟨_, _, _, rfl, -⟩ := Binding.enumItem_ok hitem
      exact ⟨rfl, _, hi, .enum⟩
    | message p hp =>
      obtain ⟨_, _, _, hi, -⟩ := e.mirrored.messages.structs p hp
      exact ⟨rfl, _, hi, .message⟩
    | nestedEnum p hp en hen =>
      obtain ⟨item, hi, hitem⟩ := e.mirrored.messages.enums p hp en hen
      obtain ⟨_, _, _, rfl, -⟩ := Binding.enumItem_ok hitem
      exact ⟨rfl, _, hi, .enum⟩
  obtain ⟨hmodule, raw, hi, hkind⟩ := hraw
  obtain ⟨item, hitem, hfinished⟩ := hreshapes.itemAt_right e.finished hi
  refine ⟨hmodule, item, e.itemAt_of_body hitem, ?_, fun name hn => ?_⟩
  · generalize symbol.kind = kind at hkind
    cases hkind with
    | message => exact hfinished.of_struct ▸ .message
    | enum => exact hfinished.of_enum ▸ .enum
  · exact ItemAt.notMem_keywords e.finished hi hn

/-- The name that leads to an item of a module is one at its top. -/
theorem Emission.isLocal_of_itemAt (e : Emission g s f m) (h : s.Succeed g files) (hf : f ∈ files)
    (hi : s.index = []) {name : String} {rest : List String} {item : Item}
    (hitem : ItemAt m.file.items (name :: rest) item) :
    s.symbols.isLocal f.module name = true := by
  obtain ⟨raw, hraw, -⟩ := (reshapes_finished e.relocation).itemAt_left e.finished
    ((e.itemAt_iff hi).mp hitem)
  rw [h.describes.isLocal]
  have hnames := hraw.head_mem
  rw [e.mirrored.names] at hnames
  exact ⟨f, hf, rfl, hnames⟩

end Definitions

/-! ## Where references lead -/

/-- A path that stands inside a module, where the names `here` lead, refers to the definition with a
full name: it leads to the structure or enumeration of the definition, and it leads nowhere else
exactly if the definition is one of the same module or nothing clashes with it. -/
def RefersTo (g : Generator) (files : List SchemaFile) (p : Package) (m : GeneratedModule)
    (here : List String) (fullName : String) (path : Path) : Prop :=
  ∃ s item, (fullName, s) ∈ definitions files ∧ Item.IsOf s.kind item ∧
    p.Leads g.root m here path (.item s.module s.path item) ∧
    ((∀ t, p.Leads g.root m here path t → t = .item s.module s.path item) ↔
      s.module = m.module ∨ ¬ Clash g.settings.asyncPrefix files s.module s.path)

variable {f : SchemaFile} {m : GeneratedModule}

theorem path_eq_head_cons {symbol : Symbol} (h : symbol.path ≠ []) :
    symbol.path = symbol.head :: symbol.path.tail := by
  obtain ⟨first, rest, hpath⟩ := List.exists_cons_of_ne_nil h
  rw [Symbol.head, hpath]
  rfl

/-- A definition stands at its absolute path, which begins with a name. -/
theorem exists_stands (h : s.Succeed g files) (hn : DistinctNames files)
    (hindex : g.settings.moduleIndex = false) {fullName : String} {symbol : Symbol}
    (hsym : (fullName, symbol) ∈ definitions files) : ∃ item, Item.IsOf symbol.kind item ∧
      s.package.Stands (symbol.module.segments ++ symbol.path)
        (.item symbol.module symbol.path item) ∧
      ((∀ t, s.package.Stands (symbol.module.segments ++ symbol.path) t →
        t = .item symbol.module symbol.path item) ↔
          ¬ Clash g.settings.asyncPrefix files symbol.module symbol.path) ∧
      symbol.path = symbol.head :: symbol.path.tail ∧ ∀ name ∈ symbol.path, name ∉ keywords := by
  obtain ⟨f, hf, hd⟩ := mem_definitions.mp hsym
  obtain ⟨m, hm, ⟨e⟩⟩ := h.exists_emission hn hf
  obtain ⟨hmodule, item, hitem, hkind, hkeywords⟩ := e.exists_item hd
  have hstands := Stands.item hm hitem
  rw [e.module, ← hmodule] at hstands
  have hunique := stands_unique_iff h hn hindex hf hm e hitem
  rw [← hmodule] at hunique
  exact ⟨item, hkind, hstands, hunique, path_eq_head_cons hitem.ne_nil, hkeywords⟩

theorem notMem_pathWords {name : String} (h : name ∉ keywords) : name ∉ pathWords := by
  have hsubset : pathWords ⊆ keywords := by decide
  exact fun hw => h (hsubset hw)

/-- A path that leads to what stands at the absolute path of a definition refers to it. -/
theorem refersTo_of_leads_iff (h : s.Succeed g files) (hn : DistinctNames files)
    (hindex : g.settings.moduleIndex = false) {here : List String} {fullName : String}
    {symbol : Symbol} (hsym : (fullName, symbol) ∈ definitions files)
    (hmodule : symbol.module ≠ m.module) {path : Path}
    (hl : ∀ t, s.package.Leads g.root m here path t ↔
      s.package.Stands (symbol.module.segments ++ symbol.path) t) :
    RefersTo g files s.package m here fullName path := by
  obtain ⟨item, hkind, hstands, hunique, -⟩ := exists_stands h hn hindex hsym
  refine ⟨symbol, item, hsym, hkind, (hl _).mpr hstands, ?_⟩
  rw [or_iff_right hmodule, ← hunique]
  exact forall_congr' fun t => imp_congr_left (hl t)

section Written

variable (h : s.Succeed g files) (hn : DistinctNames files)
  (hindex : g.settings.moduleIndex = false)
  (hroot : g.root.leading = true ∨ g.root.names.head? = some "crate") (e : Emission g s f m)
  {here : List String} {fullName : String} {symbol : Symbol}
  (hsym : (fullName, symbol) ∈ definitions files)

include h hn hindex

/-- A name that is imported names a definition of the module that it is imported from. -/
theorem Emission.import_spec {name : String} {source : ModuleId}
    (hi : (name, source) ∈ e.imports.entries) :
    name ∉ keywords ∧ s.symbols.isLocal f.module name = false := by
  have himportable := e.sound.importable name source hi
  obtain ⟨_, imported, hget, -, rfl⟩ := himportable.definition
  obtain ⟨_, -, -, -, hpath, hkeywords⟩ :=
    exists_stands h hn hindex ((h.describes.get?_eq_some hn).mp hget)
  exact ⟨hkeywords _ (hpath ▸ List.mem_cons_self), himportable.free⟩

/-- No import is called like the keyword that stands for the root. -/
theorem lookup_crate : e.relocation.lookup "crate" = none := by
  rcases e.lookup_relocation "crate" with ⟨hnone, -⟩ | ⟨_, _, himport, -⟩
  · exact hnone
  · exact absurd (by decide) (e.import_spec h hn hindex himport).1

include hsym

/-- The names of a definition are written as they are, behind the steps out of the module. -/
theorem relativeType_path {depth : Nat} {names : List Ident} {t : Ty}
    (hnames : symbol.path.mapM Ident.ofName = .ok names)
    (ht : Binding.relativeType depth names = .ok t) : t = .path (.relative depth symbol.path) := by
  obtain ⟨_, -, -, -, -, hkeywords⟩ := exists_stands h hn hindex hsym
  have htexts := Ident.texts_of_mapM hnames
  refine htexts ▸ Binding.relativeType_ok (fun hu => ?_) ht
  exact hkeywords "_" (htexts ▸ List.mem_map.mpr ⟨_, hu, rfl⟩) (by decide)

include e

/-- A definition of the same module stands in it, behind a name at its top. -/
theorem exists_own_item (hf : f ∈ files) (hmodule : symbol.module = f.module) :
    ∃ item, Item.IsOf symbol.kind item ∧
      ItemAt m.file.items (symbol.head :: symbol.path.tail) item ∧
      s.symbols.isLocal f.module symbol.head = true := by
  obtain ⟨hi, -⟩ := h.indexFiles_eq_nil hindex
  obtain ⟨f', hf', hd⟩ := mem_definitions.mp hsym
  obtain rfl : f' = f := by
    obtain ⟨m', -, ⟨e'⟩⟩ := h.exists_emission hn hf'
    exact h.describes.eq_of_module hf' hf ((e'.exists_item hd).1.symm.trans hmodule)
  obtain ⟨-, item, hitem, hkind, -⟩ := e.exists_item hd
  rw [path_eq_head_cons hitem.ne_nil] at hitem
  exact ⟨item, hkind, hitem, e.isLocal_of_itemAt h hf hi hitem⟩

/-- The name of a definition of the same module is not relocated. -/
theorem lookup_own (hf : f ∈ files) (hmodule : symbol.module = f.module) :
    e.relocation.lookup symbol.head = none := by
  obtain ⟨_, -, -, hlocal⟩ := exists_own_item h hn hindex e hsym hf hmodule
  exact e.lookup_relocation_of_isLocal hlocal

include hroot

/-- A reference to the same module leads to an item of it. -/
theorem refersTo_own (hf : f ∈ files) (hmodule : symbol.module = f.module) :
    RefersTo g files s.package m here fullName (.relative here.length symbol.path) := by
  obtain ⟨hi, -⟩ := h.indexFiles_eq_nil hindex
  obtain ⟨item, hkind, hitem, hlocal⟩ := exists_own_item h hn hindex e hsym hf hmodule
  obtain ⟨_, -, -, -, hpath, hkeywords⟩ := exists_stands h hn hindex hsym
  have hword := notMem_pathWords (hkeywords _ (hpath ▸ List.mem_cons_self))
  have huse (source : Path) (idents : List Ident) (hu : .use source idents ∈ m.file.items) :
      ⟨symbol.head⟩ ∉ idents := by
    intro hmem
    obtain ⟨module, himport, -⟩ := e.source_of_use hu hmem
    have hfree := (e.import_spec h hn hindex himport).2
    exact Bool.false_ne_true (hfree.symm.trans hlocal)
  have hleads (t : Target) :
      Leads s.package g.root m here (.relative here.length (symbol.head :: symbol.path.tail)) t ↔
        ∃ item, ItemAt m.file.items (symbol.head :: symbol.path.tail) item ∧
          t = .item m.module (symbol.head :: symbol.path.tail) item :=
    leads_own_iff hroot hword huse
  refine ⟨symbol, item, hsym, hkind, ?_, ?_⟩
  · rw [hpath, hleads, hmodule, e.module]
    exact ⟨item, hitem, rfl⟩
  · refine iff_of_true (fun t ht => ?_) (.inl (hmodule.trans e.module.symm))
    rw [hpath] at ht ⊢
    obtain ⟨item', hitem', rfl⟩ := (hleads t).mp ht
    rw [e.unique hi (h.describes.claimed f hf) hitem' hitem, hmodule, e.module]

/-- A reference by the full path leads to what stands there. -/
theorem refersTo_absolute (hmodule : symbol.module ≠ f.module) {path : Path}
    (hb : g.root.Below (symbol.module.segments ++ symbol.path) path) :
    RefersTo g files s.package m here fullName path :=
  refersTo_of_leads_iff h hn hindex hsym (e.module ▸ hmodule) fun _ => leads_absolute_iff hroot hb

/-- A reference by an imported name leads on from the module that it is imported from. -/
theorem refersTo_imported (hf : f ∈ files) (hmodule : symbol.module ≠ f.module)
    (himport : (symbol.head, symbol.module) ∈ e.imports.entries)
    (hd : (f.module, symbol.module) ∉ s.resolution.demoted) :
    RefersTo g files s.package m here fullName (.relative here.length symbol.path) := by
  obtain ⟨hi, -⟩ := h.indexFiles_eq_nil hindex
  obtain ⟨_, -, -, -, hpath, hkeywords⟩ := exists_stands h hn hindex hsym
  obtain ⟨hkeyword, hfree⟩ := e.import_spec h hn hindex himport
  have hnone (item : Item) : ¬ ItemAt m.file.items (symbol.head :: symbol.path.tail) item := by
    intro hitem
    exact Bool.false_ne_true (hfree.symm.trans (e.isLocal_of_itemAt h hf hi hitem))
  have hsource (source : Path) (idents : List Ident) (hu : .use source idents ∈ m.file.items)
      (hmem : ⟨symbol.head⟩ ∈ idents) : g.root.Below symbol.module.segments source := by
    obtain ⟨module, hother, hb⟩ := e.source_of_use hu hmem
    exact e.import_unique himport hother ▸ hb
  refine refersTo_of_leads_iff h hn hindex hsym (e.module ▸ hmodule) fun t => ?_
  rw [hpath]
  exact leads_imported_iff hroot (notMem_pathWords hkeyword) hnone (e.exists_use himport hd) hsource

/-- An imported name leads to its definition, be the import declared or deferred. -/
theorem refersTo_relocated (hf : f ∈ files) (hmodule : symbol.module ≠ f.module)
    (himport : (symbol.head, symbol.module) ∈ e.imports.entries) :
    RefersTo g files s.package m here fullName
      ((Path.relative here.length symbol.path).relocateHead e.relocation) := by
  obtain ⟨_, -, -, -, hpath, hkeywords⟩ := exists_stands h hn hindex hsym
  have hsuper : symbol.head ≠ "super" := fun he =>
    hkeywords _ (hpath ▸ List.mem_cons_self) (he ▸ by decide)
  rcases e.lookup_relocation symbol.head with ⟨hnone, hkept⟩ | ⟨source, target, hother, hr, ht⟩
  · have hl : RefersTo g files s.package m here fullName (.relative here.length symbol.path) :=
      refersTo_imported h hn hindex hroot e hsym hf hmodule himport (hkept _ himport)
    rw [hpath] at hl ⊢
    rwa [Path.relocateHead_relative_of_none hsuper hnone]
  · obtain rfl := e.import_unique himport hother
    rw [hpath, Path.relocateHead_relative_of_some hsuper hr]
    exact refersTo_absolute h hn hindex hroot e hsym hmodule (hpath ▸ Path.below_appendNames ht _)

/-- However a reference was written, it refers to its definition once its module is finished. -/
theorem refersTo_of_written (hf : f ∈ files) {t : Ty}
    (hw : Binding.Written (g.context s.symbols f) e.imports here.length symbol t) :
    ∃ path, t.relocate e.relocation = .path path ∧
      RefersTo g files s.package m here fullName path := by
  have hplain : (Path.relative here.length symbol.path).mapTypes (Ty.relocateHead e.relocation) =
      .relative here.length symbol.path := Path.mapTypes_ofNames ..
  cases hw with
  | own names hmodule hnames ht =>
    have hmodule : symbol.module = f.module := hmodule
    obtain ⟨_, -, -, -, hpath, hkeywords⟩ := exists_stands h hn hindex hsym
    have hsuper : symbol.head ≠ "super" := fun he =>
      hkeywords _ (hpath ▸ List.mem_cons_self) (he ▸ by decide)
    have hnone := lookup_own h hn hindex e hsym hf hmodule
    refine ⟨_, ?_, refersTo_own h hn hindex hroot e hsym hf hmodule⟩
    rw [relativeType_path h hn hindex hsym hnames ht, Ty.relocate_path, hplain]
    rw [hpath, Path.relocateHead_relative_of_none hsuper hnone]
  | imported names hmodule himport hnames ht =>
    refine ⟨_, ?_, refersTo_relocated h hn hindex hroot e hsym hf hmodule (mem_of_lookup himport)⟩
    rw [relativeType_path h hn hindex hsym hnames ht, Ty.relocate_path, hplain]
  | absolute names hmodule hnames ht =>
    obtain ⟨segments, hsegments, rfl⟩ := Binding.absoluteType_ok ht
    refine ⟨_, Ty.relocate_path _, refersTo_absolute h hn hindex hroot e hsym hmodule ?_⟩
    have hb := Path.below_relocate (segments ++ names) hroot (lookup_crate h hn hindex e)
    rwa [List.map_append, hsegments, Ident.texts_of_mapM hnames] at hb

omit hsym in
variable (here) in
/-- A name that was bound refers to its definition, unless it is mapped to another type. -/
theorem refersTo_of_refers (hf : f ∈ files) {t : Ty} (hext : g.types.extern? fullName = none)
    (ht : Binding.Refers (g.context s.symbols f) e.imports here.length fullName t) :
    ∃ path, t.relocate e.relocation = .path path ∧
      RefersTo g files s.package m here fullName path := by
  unfold Binding.Refers at ht
  dsimp only [Generator.context] at ht
  rw [hext] at ht
  obtain ⟨symbol, hget, hw⟩ := ht
  have hsym := (h.describes.get?_eq_some hn).mp hget
  exact refersTo_of_written h hn hindex hroot e hsym hf hw

end Written

/-! ## References of fields and methods -/

/-- The field of a structure refers to the definition that its schema field names, unless that is
mapped to another type. -/
def FieldRefers (g : Generator) (files : List SchemaFile) (p : Package) (m : GeneratedModule)
    (here : List String) (field : SchemaBindings.Field) (emitted : StructField) : Prop :=
  ∀ fullName, field.type = .named fullName → g.types.extern? fullName = none →
    ∃ path, ∃ boxed : Bool, RefersTo g files p m here fullName path ∧
      emitted.type = Binding.withCardinality
        (if boxed then .global ["std", "boxed", "Box"] (.path path) else .path path)
        field.cardinality

/-- The function of a client refers to the definitions of its requests and its responses, unless
they are mapped to other types. So does its body where it reads responses, if the body can be
written as it was made. -/
def MethodRefers (g : Generator) (files : List SchemaFile) (p : Package) (m : GeneratedModule)
    (method : Method) (function : Function) : Prop :=
  (g.types.extern? method.inputType = none → ∃ path,
    RefersTo g files p m [] method.inputType path ∧
      function.request? method.shape = some (.path path)) ∧
  (g.types.extern? method.outputType = none → ∃ path,
    RefersTo g files p m [] method.outputType path ∧
      function.response? method.shape = some (.path path) ∧
      ∃ call : Binding.Call, call.method = method ∧ call.name = function.name ∧
        (method.shape.isSupported = true → allStatements wellFormed (call.body g.library) = true →
          function.decoded? = some (.path path)))

section Emitted

variable (h : s.Succeed g files) (hn : DistinctNames files)
  (hindex : g.settings.moduleIndex = false)
  (hroot : g.root.leading = true ∨ g.root.names.head? = some "crate") (e : Emission g s f m)
  (hf : f ∈ files)

include h hn hindex hroot hf

theorem fieldRefers_of_emitted {owner : String} {here : List String}
    {field : SchemaBindings.Field} {emitted : StructField}
    (he : Binding.FieldEmitted (g.context s.symbols f) e.imports owner here.length field emitted) :
    FieldRefers g files s.package m here field (emitted.relocate e.relocation) := by
  intro fullName htype hext
  obtain ⟨element, helement, hemitted⟩ := he.type
  rw [Binding.ElementOf, htype] at helement
  obtain ⟨t, ht, rfl⟩ := helement
  obtain ⟨path, hpath, href⟩ := refersTo_of_refers h hn hindex hroot e here hf hext ht
  refine ⟨path, Binding.needsBox (g.context s.symbols f) owner fullName field.cardinality, href, ?_⟩
  rw [StructField.relocate, hemitted]
  dsimp only
  rw [Binding.relocate_withCardinality]
  split
  · rw [Ty.relocate_global, hpath]
  · rw [hpath]

theorem methodRefers_of_emitted {mode : Mode} {service : Service} {method : Method}
    {made function : Function}
    (he : Binding.MethodEmitted (g.context s.symbols f) e.imports mode service method made)
    (hfinished : Function.Finished e.relocation made function) :
    MethodRefers g files s.package m method function := by
  obtain ⟨ident, request, response, hreq, hres, rfl⟩ := he
  obtain ⟨⟨body, hhead⟩, hbody⟩ := hfinished
  refine ⟨fun hext => ?_, fun hext => ?_⟩
  · obtain ⟨path, hpath, href⟩ := refersTo_of_refers h hn hindex hroot e [] hf hext hreq
    refine ⟨path, href, ?_⟩
    rw [hhead]
    exact (Binding.Call.request?_relocate _ _ body).trans (congrArg some hpath)
  · obtain ⟨path, hpath, href⟩ := refersTo_of_refers h hn hindex hroot e [] hf hext hres
    refine ⟨path, href, ?_, ⟨service.fullName, method, mode, ident, request, response⟩, rfl, ?_,
      fun hsupported hwritten => ?_⟩
    · rw [hhead]
      exact (Binding.Call.response?_relocate _ _ body).trans (congrArg some hpath)
    · rw [hhead]
      rfl
    · rw [hbody hwritten]
      exact (Binding.Call.decoded?_relocate ⟨service.fullName, method, mode, ident, request,
        response⟩ g.library hsupported).trans (congrArg some hpath)

end Emitted

/-! ## Main result -/

/-- Every reference of a generated package refers to the definition that it names: those of the
fields of all structures and those of the requests and responses of all methods, be it an item of
the same module, an imported name or a full path. It leads to this definition alone exactly if the
definition is one of the same module or nothing else has its absolute path. -/
theorem references_lead {p : Package} (hindex : g.settings.moduleIndex = false)
    (hroot : g.root.leading = true ∨ g.root.names.head? = some "crate")
    (hn : DistinctNames files) (h : generate g files = .ok p) :
    ∀ f ∈ files, ∃ m ∈ p.modules, m.source = some f.path ∧
      (∀ q ∈ f.placedMessages, ∃ attributes name fields,
        ItemAt m.file.items q.path (.struct attributes name fields) ∧
          List.Forall₂ (FieldRefers g files p m q.parents) q.message.fields fields) ∧
      ∀ service ∈ f.services, ∀ mode, ∃ moved name constructor functions,
        name.text = service.clientName g.settings.asyncPrefix mode ∧
        .finishedClient moved name service.fullName (constructor :: functions) ∈ m.file.items ∧
          List.Forall₂ (MethodRefers g files p m) service.methods functions := by
  obtain ⟨s, hs, rfl⟩ := generate_ok.mp h
  intro f hf
  obtain ⟨m, hm, ⟨e⟩⟩ := hs.exists_emission hn hf
  refine ⟨m, hm, e.source, fun q hq => ?_, fun service hservice mode => ?_⟩
  · obtain ⟨attributes, name, raw, hraw, hiff⟩ := e.struct_iff (hs.describes.claimed f hf) hq
    refine ⟨attributes, name, _, (hiff _ _ _).mpr ⟨rfl, rfl, rfl⟩, ?_⟩
    rw [List.forall₂_map_right_iff]
    exact hraw.imp fun _ _ he => fieldRefers_of_emitted hs hn hindex hroot e hf he
  · obtain ⟨name, constructor, functions, hname, hclient, hall⟩ :=
      e.exists_client hs hf hservice mode
    refine ⟨e.relocation, name, constructor, functions, hname, hclient, hall.imp ?_⟩
    rintro method function ⟨made, he, hfinished⟩
    exact methodRefers_of_emitted hs hn hindex hroot e hf he hfinished

theorem references_lead_crossing : DistinctNames crossing ∧
    Clash plain.settings.asyncPrefix crossing ⟨["a"]⟩ ["b", "X"] ∧
    ∃ p, generate plain crossing = .ok p ∧
      ∀ f ∈ crossing, ∃ m ∈ p.modules, m.source = some f.path ∧
        (∀ q ∈ f.placedMessages, ∃ attributes name fields,
          ItemAt m.file.items q.path (.struct attributes name fields) ∧
            List.Forall₂ (FieldRefers plain crossing p m q.parents) q.message.fields fields) ∧
        ∀ service ∈ f.services, ∀ mode, ∃ moved name constructor functions,
          name.text = service.clientName plain.settings.asyncPrefix mode ∧
          .finishedClient moved name service.fullName (constructor :: functions) ∈ m.file.items ∧
            List.Forall₂ (MethodRefers plain crossing p m) service.methods functions := by
  have hclash : Clash plain.settings.asyncPrefix crossing ⟨["a"]⟩ ["b", "X"] :=
    .inl ⟨_, .tail _ (.head _), by decide, ["X"], .top "X" (by decide), by decide⟩
  obtain ⟨p, h⟩ := exists_generate_crossing
  exact ⟨distinctNames_crossing, hclash, p, h,
    references_lead rfl (.inr rfl) distinctNames_crossing h⟩

end Package

end SchemaBindings
