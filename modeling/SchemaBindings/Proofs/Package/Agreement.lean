import SchemaBindings.Proofs.Code.Outline
import SchemaBindings.Proofs.Package.Assembly

/-!
The symbol table and the generated code agree: the names at the top of a module are those that the
table holds for it, and the structures and enumerations of a package are the definitions of the
table and the clients of services, each of them once.
-/

namespace SchemaBindings

open Code

namespace Binding

variable {c : Context} {final : ImportSet} {f : SchemaFile} {items : List Item}
  {module : ModuleId} {parent : List String}

/-! ## Outlines of what is made -/

theorem symbolsOf_enums {scope : String} {enums : List SchemaBindings.Enum}
    (hn : ∀ e ∈ enums, ∀ name, definedName c (qualify scope e.name) = .ok name →
      name.text = Naming.typeName e.name)
    (h : enums.mapM (enumItem c scope) = .ok items) :
    symbolsOf module parent items = (enumDefinitions module scope parent enums).map (·.2) := by
  have hall := mapM_ok.mp h
  clear h
  induction hall with
  | nil => rfl
  | @cons e item enums items he _ ih =>
    obtain ⟨attributes, name, variants, rfl, hname⟩ := enumItem_ok he
    have hrest := ih fun e he => hn e (List.mem_cons_of_mem _ he)
    rw [symbolsOf, Item.symbols, hrest, hn e List.mem_cons_self name hname]
    rfl

/-- The outline of messages is what they define, each definition at its place. -/
theorem MessagesEmitted.symbolsOf_eq {scope : String} {depth : Nat} {ms : List Message}
    (h : MessagesEmitted c final scope depth ms items)
    (hn : Named c (placedMessages scope ms)) :
    symbolsOf module parent items =
      (SymbolTable.placedDefinitions module parent (placedMessages scope ms)).map (·.2) := by
  induction h generalizing parent with
  | nil => rfl
  | @plain scope depth m rest items attributes name fields hm hs _ ih =>
    obtain ⟨hself, hothers⟩ := hn.of_cons
    obtain ⟨hmessages, henums⟩ : m.messages = [] ∧ m.enums = [] := by
      simpa [Message.hasNested] using hm
    rw [SymbolTable.placedDefinitions_cons, SymbolTable.placedDefinitions_placed, symbolsOf,
      Item.symbols, ih hothers, hself.self hs.name, hmessages, henums]
    rfl
  | @nested scope depth m rest enums inner items attributes moduleAttributes name module' fields hm
      hs hmodule henums _ _ ihinner ih =>
    obtain ⟨hself, hothers⟩ := hn.of_cons
    rw [SymbolTable.placedDefinitions_cons, SymbolTable.placedDefinitions_placed, symbolsOf,
      symbolsOf, Item.symbols, Item.symbols, symbolsOf_append, ih hothers, ihinner hself.nested,
      symbolsOf_enums hself.enums henums, hself.self hs.name, hmodule]
    simp

/-- The outline of structures. -/
theorem OnlyStructs.symbolsOf_eq (h : OnlyStructs items) :
    symbolsOf module parent items =
      (definedNames items).map fun name => ⟨module, parent ++ [name], .message⟩ := by
  induction items with
  | nil => rfl
  | cons item rest ih =>
    have hrest := ih fun i hi => h i (List.mem_cons_of_mem _ hi)
    rw [symbolsOf, hrest, definedNames_cons, List.map_append]
    cases item with
    | use | implementation | other => rfl
    | struct => rfl
    | moduleFile | module | unit | enum =>
      obtain ⟨_, _, _, he⟩ := h _ List.mem_cons_self _ rfl
      cases he

end Binding

/-- The structures of the clients of a file. -/
def SchemaFile.clients (asyncPrefix : String) (f : SchemaFile) : List Symbol :=
  (clientNames asyncPrefix f.services).map fun name => ⟨f.module, [name], .message⟩

/-- The outline of what is made for a file: its definitions, and then its clients. -/
theorem Binding.FileEmitted.symbolsOf_eq {c : Binding.Context} {final : ImportSet}
    {f : SchemaFile} {items : List Item} {files : List SchemaFile} {asyncPrefix : String}
    (h : FileEmitted c final f items) (hd : c.symbols.Describes asyncPrefix files)
    (hn : Unambiguous files) (hf : f ∈ files) :
    symbolsOf f.module [] items = f.definitions.map (·.2) ++ f.clients c.asyncPrefix := by
  obtain ⟨hnamed, he⟩ := named_of_unambiguous hd hn hf
  obtain ⟨henums, hmessages, hservices⟩ := h
  rw [symbolsOf_append, symbolsOf_append, symbolsOf_enums he henums,
    hmessages.symbolsOf_eq hnamed, hservices.structs.symbolsOf_eq, hservices.names,
    SchemaFile.definitions, List.map_append]
  rfl

namespace Package

variable {g : Generator} {files : List SchemaFile} {p : Package} {s : Stages} {f : SchemaFile}
  {m : GeneratedModule}

/-- The structures and enumerations of the modules of a package. -/
def symbols (p : Package) : List Symbol :=
  p.modules.flatMap fun m => symbolsOf m.module [] m.file.items

/-- Imports and declarations of child modules are not written where they stand. -/
theorem Assembly.filter_inline (a : Assembly g s f m) :
    m.file.items.filter Item.isInline = a.body := by
  have huses : a.uses.filter Item.isInline = [] := by
    rw [List.filter_eq_nil_iff]
    intro item hm
    obtain ⟨_, -, _, _, rfl, -⟩ := a.mem_uses hm
    exact Bool.false_ne_true
  have hchildren : a.children.filter Item.isInline = [] := by
    rw [List.filter_eq_nil_iff]
    intro item hm
    obtain ⟨_, rfl⟩ := a.mem_children hm
    exact Bool.false_ne_true
  rw [a.items, List.filter_append, List.filter_append, huses, hchildren,
    List.filter_eq_self.mpr a.inline]
  rfl

/-- The outline of a module is that of the items that are made for its file. -/
theorem Assembly.symbolsOf_items (a : Assembly g s f m) :
    symbolsOf m.module [] m.file.items = symbolsOf f.module [] a.raw := by
  have huses : symbolsOf f.module [] a.uses = [] := symbolsOf_eq_nil fun item hm => by
    obtain ⟨_, -, _, _, rfl, -⟩ := a.mem_uses hm
    rfl
  have hchildren : symbolsOf f.module [] a.children = [] := symbolsOf_eq_nil fun item hm => by
    obtain ⟨_, rfl⟩ := a.mem_children hm
    rfl
  rw [a.module, a.items, symbolsOf_append, symbolsOf_append, huses, hchildren,
    symbolsOf_finished a.finished]
  rfl

/-- The names that are defined at the top of a module are those of its file. -/
theorem Emission.inlineNames_items (e : Emission g s f m) :
    inlineNames m.file.items = f.names g.settings.asyncPrefix := by
  rw [inlineNames, e.filter_inline, (reshapes_finished e.relocation).definedNames_eq e.finished,
    e.mirrored.names]
  rfl

/-- No name is defined twice inside a module that stands in the file. -/
theorem Emission.nodup_inner (e : Emission g s f m)
    (hd : SymbolTable.Claimed g.settings.asyncPrefix f) {path : List String}
    {attributes : List Attribute} {name : Ident} {inner : List Item}
    (hm : ItemAt m.file.items path (.module attributes name inner)) :
    (definedNames inner).Nodup := by
  have hscopes := (reshapes_finished e.relocation).distinctScopes e.finished
    (e.mirrored.distinctScopes hd)
  rcases e.itemAt_cases hm with hm | hm
  · exact hscopes.inside path attributes name inner hm
  · obtain ⟨_, he⟩ := e.mem_children hm
    cases he

/-- An index defines nothing. -/
theorem symbolsOf_indexFile {parent : ModuleId} {children : List String}
    (h : indexFile parent children = .ok m) : symbolsOf m.module [] m.file.items = [] := by
  obtain ⟨-, -, -, hitems⟩ := indexFile_ok h
  obtain ⟨idents, -, hidents⟩ := childItems_ok hitems
  rw [hidents]
  refine symbolsOf_eq_nil fun item hm => ?_
  obtain ⟨ident, -, rfl⟩ := List.mem_map.mp hm
  rfl

/-- The outlines of the modules of files, one after the other. -/
theorem Stages.Succeed.symbolsOf_finished (h : s.Succeed g files) (hn : Unambiguous files) :
    (s.finished.flatMap fun m => symbolsOf m.module [] m.file.items) =
      files.flatMap fun f => f.definitions.map (·.2) ++ f.clients g.settings.asyncPrefix := by
  refine flatMap_eq_of_forall₂ (forall₂_comp h.drafts h.finished) ?_
  rintro f hf m - ⟨d, hd, hm⟩
  obtain ⟨d', hmem, hd'⟩ := exists_mem_right h.drafts hf
  obtain rfl := Except.ok.inj (hd.symm.trans hd')
  obtain ⟨a⟩ := h.assembly hmem hd hm
  rw [a.symbolsOf_items]
  exact a.emitted.symbolsOf_eq h.describes hn hf

/-- The structures and enumerations of a package are what its table defines, and the clients. -/
theorem Stages.Succeed.symbols_perm (h : s.Succeed g files) (hn : DistinctNames files) :
    s.package.symbols.Perm
      (s.symbols.symbols.map (·.2) ++ files.flatMap (·.clients g.settings.asyncPrefix)) := by
  have hindex : (s.indexFiles.flatMap fun m => symbolsOf m.module [] m.file.items) = [] := by
    rw [List.flatMap_eq_nil_iff]
    intro m hm
    obtain ⟨e, -, he⟩ := exists_mem_left h.indexFiles hm
    exact symbolsOf_indexFile he
  have htable : (s.symbols.symbols.map (·.2)).Perm
      (files.flatMap fun f => f.definitions.map (·.2)) := by
    rw [h.describes.symbols, ← List.map_flatMap]
    exact (insertEach_nil_perm hn).map _
  refine (s.package_modules_perm.flatMap_right _).trans ?_
  rw [List.flatMap_append, hindex, List.append_nil, h.symbolsOf_finished hn.unambiguous]
  exact (List.flatMap_append_perm ..).symm.trans (htable.symm.append_right _)

/-- The module of a file defines at its top exactly the names that the table has for it, among them
both clients of every service, and neither there nor in a module inside is a name defined twice. -/
structure Agrees (asyncPrefix : String) (table : SymbolTable) (f : SchemaFile)
    (m : GeneratedModule) : Prop where
  source : m.source = some f.path
  module : m.module = f.module
  nodup : (inlineNames m.file.items).Nodup
  names : ∀ name, name ∈ inlineNames m.file.items ↔ table.isLocal m.module name = true
  clients : ∀ service ∈ f.services, ∀ mode,
    service.clientName asyncPrefix mode ∈ inlineNames m.file.items
  inner : ∀ path attributes name inner,
    ItemAt m.file.items path (.module attributes name inner) → (definedNames inner).Nodup

theorem Emission.agrees (e : Emission g s f m) (h : s.Succeed g files) (hf : f ∈ files) :
    Agrees g.settings.asyncPrefix s.symbols f m where
  source := e.source
  module := e.module
  nodup := e.inlineNames_items ▸ (h.describes.claimed f hf).names
  names := by
    intro name
    rw [e.inlineNames_items, e.module, h.describes.isLocal]
    constructor
    · intro hname
      exact ⟨f, hf, rfl, hname⟩
    · rintro ⟨f', hf', hmodule, hname⟩
      exact h.describes.eq_of_module hf' hf hmodule ▸ hname
  clients := by
    intro service hservice mode
    rw [e.inlineNames_items]
    refine List.mem_append_right _ (List.mem_flatMap.mpr ⟨service, hservice, ?_⟩)
    cases mode <;> simp
  inner _ _ _ _ := e.nodup_inner (h.describes.claimed f hf)

/-- The symbol table and the package agree: every file has its module, with the names that the table
has for it, and the structures and enumerations of the package are the definitions of the table,
each once in its module at its path and of its kind, and the clients of services, but no others. -/
theorem symbols_agree (hn : DistinctNames files) (h : generate g files = .ok p) :
    ∃ table, SymbolTable.build files g.settings.asyncPrefix = .ok table ∧
      (∀ f ∈ files, ∃ m ∈ p.modules, Agrees g.settings.asyncPrefix table f m) ∧
      p.symbols.Perm
        (table.symbols.map (·.2) ++ files.flatMap (·.clients g.settings.asyncPrefix)) := by
  obtain ⟨s, hs, rfl⟩ := generate_ok.mp h
  refine ⟨s.symbols, hs.symbols, fun f hf => ?_, hs.symbols_perm hn⟩
  obtain ⟨m, hm, ⟨e⟩⟩ := hs.exists_emission hn hf
  exact ⟨m, hm, e.agrees hs hf⟩

theorem symbols_agree_crossing : DistinctNames crossing ∧
    ∃ p, generate plain crossing = .ok p ∧
    ∃ table, SymbolTable.build crossing plain.settings.asyncPrefix = .ok table ∧
      (∀ f ∈ crossing, ∃ m ∈ p.modules, Agrees plain.settings.asyncPrefix table f m) ∧
      p.symbols.Perm
        (table.symbols.map (·.2) ++ crossing.flatMap (·.clients plain.settings.asyncPrefix)) := by
  obtain ⟨p, h⟩ := exists_generate_crossing
  exact ⟨distinctNames_crossing, p, h, symbols_agree distinctNames_crossing h⟩

end Package

end SchemaBindings
