import SchemaBindings.Binding.Module
import SchemaBindings.Proofs.Binding.Message
import SchemaBindings.Proofs.Binding.Service
import SchemaBindings.Proofs.Schema.Registration

/-!
The items of a module mirror its schema file.
-/

namespace SchemaBindings.Binding

open Code

variable {c : Context} {f : SchemaFile}

/-- The items that are made for a schema file: those of its enums, of its messages and of its
services. -/
inductive FileEmitted (c : Context) (final : ImportSet) (f : SchemaFile) : List Item → Prop
  | mk {enums messages services : List Item}
      (henums : f.enums.mapM (enumItem c f.package) = .ok enums)
      (hmessages : MessagesEmitted c final f.package 0 f.messages messages)
      (hservices : ServicesEmitted c final f.services (clientNames c.asyncPrefix f.services)
        services) :
    FileEmitted c final f (enums ++ messages ++ services)

theorem moduleFile_ensures (c : Context) (f : SchemaFile) :
    Ensures c (moduleFile c f) fun final file => FileEmitted c final f file.items := by
  unfold moduleFile
  refine .bindLift fun enums henums => ?_
  refine .bind (allMessageItems_ensures f.messages f.package 0) fun messages => ?_
  refine .bind (serviceItems_ensures f.services) fun services => ?_
  exact .pure fun final hservices hmessages => .mk henums hmessages hservices

theorem FileEmitted.inline {final : ImportSet} {items : List Item}
    (h : FileEmitted c final f items) : ∀ item ∈ items, item.isInline = true := by
  obtain ⟨henums, hmessages, hservices⟩ := h
  intro item hm
  rcases List.mem_append.mp hm with hm | hm
  · exact (List.mem_append.mp hm).elim (inline_of_enums henums item) (hmessages.inline item)
  · exact hservices.inline item hm

/-- Every message has its structure in the scope that its parents lead to. -/
theorem FileEmitted.exists_struct {final : ImportSet} {items : List Item}
    (h : FileEmitted c final f items) {p : PlacedMessage} (hp : p ∈ f.placedMessages) :
    ∃ here attributes name fields, ScopeAt items p.parents here ∧
      .struct attributes name fields ∈ here ∧
        List.Forall₂ (FieldEmitted c final p.fullName p.parents.length) p.message.fields
          fields := by
  obtain ⟨-, hmessages, -⟩ := h
  obtain ⟨here, attributes, name, fields, hscope, hmem, hf⟩ := hmessages.exists_struct hp
  obtain ⟨here', hscope', hsub⟩ := hscope.mono fun _ hi =>
    List.mem_append_left _ (List.mem_append_right _ hi)
  rw [Nat.zero_add] at hf
  exact ⟨here', attributes, name, fields, hscope', hsub hmem, hf⟩

/-- Whatever holds of the names of definitions, of modules and of clients holds of all names. -/
theorem FileEmitted.allNames {P : String → Prop} {final : ImportSet} {items : List Item}
    (h : FileEmitted c final f items)
    (hd : ∀ fullName name, definedName c fullName = .ok name → P name.text)
    (hm : ∀ p ∈ f.placedMessages, p.message.hasNested = true →
      P (Naming.moduleName p.message.name))
    (hc : ∀ name ∈ clientNames c.asyncPrefix f.services, P name) : AllNames P items := by
  obtain ⟨henums, hmessages, hservices⟩ := h
  refine ((allNames_of_enums hd henums).append (hmessages.allNames hd hm)).append (.mk ?_ ?_)
  · rw [introducedNames_of_inline hservices.inline, hservices.names]
    exact hc
  · intro attributes name inner hi
    exact absurd (.here hi rfl) hservices.structs.not_module

/-- Items mirror a schema file: what it defines stands at its place, its services have their
clients, and the names of every scope are those of the file. -/
structure FileMirrored (c : Context) (final : ImportSet) (f : SchemaFile) (items : List Item) :
    Prop where
  names : definedNames items = f.names c.asyncPrefix
  enums : ∀ e ∈ f.enums, ∃ item, ItemAt items [Naming.typeName e.name] item ∧
    enumItem c f.package e = .ok item
  messages : Mirrors c final 0 f.placedMessages items
  clients : ∀ s ∈ f.services, ∀ mode, ClientEmitted c final mode s items

namespace FileMirrored

variable {final : ImportSet} {items : List Item}

/-- There is an item exactly where the schema file has a name. -/
theorem takes_iff (h : FileMirrored c final f items) {path : List String} :
    f.Takes c.asyncPrefix path ↔ ∃ item, ItemAt items path item := by
  constructor
  · rintro (⟨name, hn⟩ | ⟨p, hp, name, hn⟩)
    · exact ItemAt.exists_of_mem (h.names ▸ hn)
    · have hnested : p.message.hasNested = true := by
        by_contra hnone
        simp_all [PlacedMessage.innerNames, scopeNames, Message.hasNested]
      obtain ⟨attributes, ident, inner, hi, hinner⟩ := h.messages.nested p hp hnested
      obtain ⟨item, hitem⟩ := ItemAt.exists_of_mem (hinner ▸ hn)
      exact ⟨item, hi.append hitem⟩
  · rintro ⟨item, hi⟩
    rcases hi.cases_parent with ⟨name, hn, rfl⟩ | ⟨parent, as, i, inner, hm, name, hn, rfl⟩
    · exact .top name (h.names ▸ hn)
    · obtain ⟨p, hp, rfl, hinner⟩ := h.messages.modules _ _ _ _ hm
      exact .nested p hp name (hinner ▸ hn)

theorem distinctScopes (h : FileMirrored c final f items)
    (hc : SymbolTable.Claimed c.asyncPrefix f) : DistinctScopes items where
  here := h.names ▸ hc.names
  inside := by
    intro path attributes name inner hm
    obtain ⟨p, hp, -, hinner⟩ := h.messages.modules _ _ _ _ hm
    exact hinner ▸ hc.innerNames p hp

end FileMirrored

/-! ## Names from the symbol table -/

variable {files : List SchemaFile} {asyncPrefix : String}

/-- A definition gets its own name. -/
theorem text_of_definedName (hd : c.symbols.Describes asyncPrefix files) (hn : Unambiguous files)
    {d : Definition} (hmem : d ∈ definitions files) {front : List String} {last : String}
    (hpath : d.2.path = front ++ [last]) {name : Ident} (h : definedName c d.1 = .ok name) :
    name.text = last := by
  obtain ⟨s, hs, hname⟩ := hd.exists_get? hn hmem
  rw [definedName, hs] at h
  rw [Ident.text_of_ofName h, hname, Symbol.name, hpath, List.getLast?_concat, Option.getD_some]

/-- The definitions of a file are registered under their own names. -/
theorem named_of_unambiguous (hd : c.symbols.Describes asyncPrefix files) (hn : Unambiguous files)
    (hf : f ∈ files) : Named c f.placedMessages ∧
      ∀ e ∈ f.enums, ∀ name, definedName c (qualify f.package e.name) = .ok name →
        name.text = Naming.typeName e.name := by
  have hmem {d : Definition} (h : f.Defines d) : d ∈ definitions files :=
    mem_definitions.mpr ⟨f, hf, h⟩
  refine ⟨⟨?_, ?_⟩, ?_⟩
  · intro p hp name h
    exact text_of_definedName hd hn (hmem (.message p hp)) rfl h
  · intro p hp e he name h
    exact text_of_definedName hd hn (hmem (.nestedEnum p hp e he)) rfl h
  · intro e he name h
    have hpath : [Naming.typeName e.name] = [] ++ [Naming.typeName e.name] := rfl
    exact text_of_definedName hd hn (hmem (.enum e he)) hpath h

/-- What is made for a file mirrors it. -/
theorem FileEmitted.mirrored {final : ImportSet} {items : List Item}
    (h : FileEmitted c final f items) (hd : c.symbols.Describes asyncPrefix files)
    (hn : Unambiguous files) (hf : f ∈ files) : FileMirrored c final f items := by
  obtain ⟨hnamed, he⟩ := named_of_unambiguous hd hn hf
  obtain ⟨henums, hmessages, hs⟩ := h
  have hemitted := enumsEmitted he henums
  obtain ⟨hnames, hm⟩ := hmessages.mirrors hnamed
  refine ⟨?_, ?_, ?_, ?_⟩
  · rw [definedNames_append, definedNames_append, hemitted.names, hnames, hs.names]
    rfl
  · intro e hmem
    obtain ⟨item, hi, hitem⟩ := hemitted.here e hmem
    exact ⟨item, ItemAt.append_iff.mpr (.inl (ItemAt.append_iff.mpr (.inl hi))), hitem⟩
  · have hall := ((Mirrors.of_flat hemitted.flat).append hm).append
      (.of_flat fun _ _ _ _ => hs.structs.not_module)
    simpa [SchemaFile.placedMessages] using hall
  · intro s hmem mode
    exact (hs.clients s hmem mode).mono (List.subset_append_right ..)

end SchemaBindings.Binding
